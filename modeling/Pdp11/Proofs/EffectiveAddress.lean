import Pdp11.Proofs.Interpreter.Operands
import Pdp11.Proofs.Recovery

/-!
# Effective addresses

The mode of an operand in memory makes an address of a register and the next
word of the instruction stream. That is where the operand is or, in some modes,
where a pointer to it is. The program counter counts as the address of the next
word of the stream, whatever has been read ahead of it.
-/

namespace Pdp11

universe u

namespace AddressingMode

/-- A word of the stream is added to the register. -/
def isIndexed : AddressingMode → Bool
  | index | indexDeferred => true
  | _ => false

/-- The address that the mode makes is that of a pointer. -/
def followsPointer : AddressingMode → Bool
  | autoincrementDeferred | autodecrementDeferred | indexDeferred => true
  | _ => false

end AddressingMode

namespace Operand

/-- The operand is a word of the stream. -/
def isImmediate (operand : Operand) : Bool :=
  operand.mode = .autoincrement ∧ operand.reg = .pc

theorem takesWord_of_isImmediate {operand : Operand} (immediate : operand.isImmediate) :
    operand.takesWord := by
  simp only [isImmediate, decide_eq_true_eq] at immediate
  simp [takesWord, immediate]

/-- An operand that takes no word is found in the same way in every stream. -/
theorem addressOps_of_takesNone {operand : Operand} (takesNone : operand.takesWord = false)
    (width : Width) (slot : OperandSlot) (stream other : InstructionStream) :
    operand.addressOps width slot stream = operand.addressOps width slot other := by
  rcases operand with ⟨mode, reg⟩
  cases mode with
  | register | registerDeferred | autodecrement | autodecrementDeferred => rfl
  | autoincrement => rfl
  | autoincrementDeferred =>
      have notPc : reg ≠ .pc := of_decide_eq_false takesNone
      simp only [addressOps, notPc, if_false]
  | index | indexDeferred => contradiction

/-- A word of the stream points to the operand. -/
def isAbsolute (operand : Operand) : Bool :=
  operand.mode = .autoincrementDeferred ∧ operand.reg = .pc

/-- The address that the mode makes of the word in its register. -/
def firstAddress (operand : Operand) (width : Width) (base index : Word) : Word :=
  match operand.mode with
  | .register | .registerDeferred | .autoincrement | .autoincrementDeferred => base
  | .autodecrement | .autodecrementDeferred => base - operand.step width
  | .index | .indexDeferred => base + index

theorem firstAddress_inj {operand : Operand} {width : Width} {base other index : Word} :
    operand.firstAddress width base index = operand.firstAddress width other index ↔
      base = other := by
  unfold firstAddress
  cases operand.mode with
  | register | registerDeferred | autoincrement | autoincrementDeferred => rfl
  | autodecrement | autodecrementDeferred => exact BitVec.sub_left_inj _
  | index | indexDeferred => exact BitVec.add_left_inj _

/-- What the program counter counts as for the operand at `stream`. Its index has
been taken by then, but no other word. -/
def counter (operand : Operand) (stream : InstructionStream) : Word :=
  if operand.mode.isIndexed then stream.tail.cursor else stream.cursor

end Operand

variable {δ : Type u}

namespace Machine

/-- The word that the mode of the operand at `stream` starts from. -/
def base (machine : Machine δ) (operand : Operand) (stream : InstructionStream) : Word :=
  if operand.reg = .pc then operand.counter stream else machine.reg operand.reg

/-- Step a register, and note the step. -/
def stepReg (machine : Machine δ) (reg : Reg) (amount : Word) : Machine δ :=
  { machine.setReg reg (machine.reg reg + amount) with
    mmu := machine.mmu.recordStep reg.field amount }

/-- The machine after the step that the mode of the operand takes. -/
def stepped (machine : Machine δ) (operand : Operand) (width : Width) : Machine δ :=
  match operand.mode with
  | .autoincrement | .autoincrementDeferred => machine.stepReg operand.reg (operand.step width)
  | .autodecrement | .autodecrementDeferred => machine.stepReg operand.reg (-operand.step width)
  | .register | .registerDeferred | .index | .indexDeferred => machine

/-- Where the operand at `stream` is in memory. A pointer to it is read as data of
the current mode, unless it is a word of the stream. -/
def effectiveAddress [Bus δ] (machine : Machine δ) (operand : Operand) (width : Width)
    (stream : InstructionStream) : Except AccessError Word :=
  let first := operand.firstAddress width (machine.base operand stream) stream.head
  if operand.isAbsolute then
    .ok stream.head
  else if operand.mode.followsPointer then
    ((machine.stepped operand width).read machine.psw.mode .read first .word).1
  else
    .ok first

theorem effectiveAddress_of_isImmediate [Bus δ] (machine : Machine δ) {operand : Operand}
    (immediate : operand.isImmediate) (width : Width) (stream : InstructionStream) :
    machine.effectiveAddress operand width stream = .ok stream.cursor := by
  simp only [Operand.isImmediate, decide_eq_true_eq] at immediate
  simp [effectiveAddress, base, immediate, Operand.isAbsolute, Operand.firstAddress,
    Operand.counter, AddressingMode.followsPointer, AddressingMode.isIndexed]

/-! ## Machines in which accesses find the same -/

/-- What an access goes by is the same in both machines. -/
structure AnswersAlike (first second : Machine δ) : Prop where
  psw : second.psw = first.psw
  ram : second.ram = first.ram
  mmu : second.mmu = first.mmu
  devices : second.devices = first.devices

theorem AnswersAlike.trans {first second third : Machine δ} (head : AnswersAlike first second)
    (tail : AnswersAlike second third) : AnswersAlike first third where
  psw := tail.psw.trans head.psw
  ram := tail.ram.trans head.ram
  mmu := tail.mmu.trans head.mmu
  devices := tail.devices.trans head.devices

/-- A pending trap is nothing that an access goes by. -/
theorem AnswersAlike.raise {first second : Machine δ} (alike : AnswersAlike first second)
    (kind : TrapClass) : AnswersAlike (first.raise kind) (second.raise kind) :=
  ⟨alike.psw, alike.ram, alike.mmu, alike.devices⟩

theorem AnswersAlike.readPhysical [Bus δ] {first second : Machine δ}
    (alike : AnswersAlike first second) (address : PhysicalAddress) (width : Width) :
    (second.readPhysical address width).1 = (first.readPhysical address width).1 := by
  have internal (address : PhysicalAddress) :
      second.readInternal? address = first.readInternal? address := by
    rw [readInternal?, readInternal?, alike.psw, alike.mmu]
  have word (address : PhysicalAddress) :
      (second.readIoWord address).1 = (first.readIoWord address).1 := by
    rw [readIoWord, readIoWord, internal, alike.devices]
    split <;> rfl
  unfold Machine.readPhysical
  rw [alike.ram]
  split
  · split <;> rfl
  · exact congrArg (Except.map _) (word _)
  · rfl

theorem AnswersAlike.read [Bus δ] {first second : Machine δ} (alike : AnswersAlike first second)
    (mode : Mode) (cycle : MemoryCycle) (address : Word) (width : Width) :
    (second.read mode cycle address width).1 = (first.read mode cycle address width).1 := by
  unfold Machine.read Machine.translate
  rw [alike.mmu]
  split
  · rfl
  · rcases first.mmu.translate mode cycle address with ⟨⟨cause⟩ | ⟨physical, trap⟩, mmu⟩
    · rfl
    · have translated : AnswersAlike { first with mmu := mmu } { second with mmu := mmu } :=
        ⟨alike.psw, alike.ram, rfl, alike.devices⟩
      cases trap with
      | false => exact translated.readPhysical physical width
      | true => exact (translated.raise .mmuTrap).readPhysical physical width

end Machine

/-! ## Micro-operations that find an operand -/

variable [Bus δ]

namespace Datapath

variable {before after : Datapath δ} {operand : Operand} {width : Width} {slot : OperandSlot}
  {stream : InstructionStream} {reg : Reg} {amount base : Word}

theorem Step.answersAlike_stackGuard (step : before.Step .stackGuard after) :
    before.machine.AnswersAlike after.machine ∧ ∀ asked, after.reg asked = before.reg asked := by
  rcases step with ⟨-, rfl⟩
  simp only [MicroOp.effect, Machine.guardStack]
  split
  · exact ⟨⟨rfl, rfl, rfl, rfl⟩, fun _ => rfl⟩
  · split <;> exact ⟨⟨rfl, rfl, rfl, rfl⟩, fun _ => rfl⟩

/-- A check of the stack pointer after the step asks for a trap at most. -/
theorem Steps.answersAlike_stepRegister (general : reg.isGeneral)
    (steps : Steps before (MicroOp.stepRegister reg amount) after) :
    (before.machine.stepReg reg amount).AnswersAlike after.machine ∧
      ∀ asked, after.reg asked = before.reg asked + if reg = asked then amount else 0 := by
  have first {middle : Datapath δ} (step : before.Step (.step reg amount) middle) :
      (before.machine.stepReg reg amount).AnswersAlike middle.machine ∧
        ∀ asked, middle.reg asked = before.reg asked + if reg = asked then amount else 0 := by
    rcases step with ⟨-, rfl⟩
    refine ⟨⟨rfl, rfl, ?_, rfl⟩, fun asked => MicroOp.reg_commit_step reg asked amount before⟩
    exact if_pos general
  unfold MicroOp.stepRegister at steps
  split at steps
  · rcases cons_iff.mp steps with ⟨middle, step, rest⟩
    rcases cons_iff.mp rest with ⟨_, guard, ⟨⟩⟩
    rcases first step with ⟨alike, registers⟩
    rcases guard.answersAlike_stackGuard with ⟨guarded, kept⟩
    exact ⟨alike.trans guarded, fun asked => (kept asked).trans (registers asked)⟩
  · rcases cons_iff.mp steps with ⟨_, step, ⟨⟩⟩
    exact first step

/-- The address register holds the address that the mode makes of `base`, and the
step of the mode has been taken. -/
structure Makes (operand : Operand) (width : Width) (slot : OperandSlot)
    (stream : InstructionStream) (base : Word) (before after : Datapath δ) : Prop where
  address : after.reg slot.address = operand.firstAddress width base stream.head
  alike : (before.machine.stepped operand width).AnswersAlike after.machine

omit [Bus δ] in
/-- Where nothing has been read ahead, the program counter is what it counts as. -/
theorem base_eq (operand : Operand) (notIndexed : operand.mode.isIndexed = false)
    (settled : operand.reg = .pc → before.reg .pc = stream.cursor) :
    before.machine.base operand stream = before.reg operand.reg := by
  unfold Machine.base
  split
  · rename_i isPc
    rw [Operand.counter, notIndexed, isPc, settled isPc]
    rfl
  · rfl

theorem Step.makes_move (step : before.Step (.move slot.address operand.reg) after)
    (mode : operand.mode = .registerDeferred) :
    Makes operand width slot stream (before.reg operand.reg) before after := by
  have after_eq : after = before.setReg slot.address (before.reg operand.reg) := step.2.symm
  rw [after_eq]
  constructor
  · rw [reg_setReg, if_pos rfl, Operand.firstAddress, mode]
  · rw [Machine.stepped, mode]
    exact ⟨rfl, rfl, rfl, rfl⟩

theorem Steps.makes_stepUp
    (steps : Steps before (.move slot.address operand.reg ::
      MicroOp.stepRegister operand.reg (operand.step width)) after)
    (mode : operand.mode = .autoincrement ∨ operand.mode = .autoincrementDeferred)
    (general : operand.reg.isGeneral) :
    Makes operand width slot stream (before.reg operand.reg) before after := by
  rcases Steps.cons_iff.mp steps with ⟨middle, moves, rest⟩
  have middle_eq : middle = before.setReg slot.address (before.reg operand.reg) := moves.2.symm
  rcases rest.answersAlike_stepRegister general with ⟨alike, registers⟩
  have apart : operand.reg ≠ slot.address :=
    (Reg.ne_of_scratch slot.isGeneral_address general).symm
  have copied : after.reg slot.address = before.reg operand.reg := by
    rw [registers, if_neg apart, middle_eq, reg_setReg, if_pos rfl]
    exact BitVec.add_zero _
  have begun : (before.machine.stepReg operand.reg (operand.step width)).AnswersAlike
      (middle.machine.stepReg operand.reg (operand.step width)) := by
    rw [middle_eq]
    exact ⟨rfl, rfl, rfl, rfl⟩
  constructor
  · rw [copied]
    rcases mode with mode | mode <;> rw [Operand.firstAddress, mode]
  · rcases mode with mode | mode
    all_goals
      rw [Machine.stepped, mode]
      exact begun.trans alike

theorem Steps.makes_stepDown
    (steps : Steps before (MicroOp.stepRegister operand.reg (-operand.step width) ++
      [.move slot.address operand.reg]) after)
    (mode : operand.mode = .autodecrement ∨ operand.mode = .autodecrementDeferred)
    (general : operand.reg.isGeneral) :
    Makes operand width slot stream (before.reg operand.reg) before after := by
  rcases Steps.append_iff.mp steps with ⟨middle, lowers, rest⟩
  rcases Steps.cons_iff.mp rest with ⟨_, moves, ⟨⟩⟩
  have after_eq : after = middle.setReg slot.address (middle.reg operand.reg) := moves.2.symm
  rcases lowers.answersAlike_stepRegister general with ⟨alike, registers⟩
  have lowered : after.reg slot.address = before.reg operand.reg - operand.step width := by
    rw [after_eq, reg_setReg, if_pos rfl, registers, if_pos rfl, ← BitVec.sub_eq_add_neg]
  have kept : middle.machine.AnswersAlike after.machine := by
    rw [after_eq]
    exact ⟨rfl, rfl, rfl, rfl⟩
  constructor
  · rw [lowered]
    rcases mode with mode | mode <;> rw [Operand.firstAddress, mode]
  · rcases mode with mode | mode
    all_goals
      rw [Machine.stepped, mode]
      exact alike.trans kept

theorem Step.makes_indexed
    (step : before.Step
      (if operand.reg = .pc then .loadImm slot.address stream.relativeAddress
        else .addImm slot.address operand.reg stream.head) after)
    (mode : operand.mode = .index ∨ operand.mode = .indexDeferred) :
    Makes operand width slot stream (before.machine.base operand stream) before after := by
  have indexed : operand.mode.isIndexed := by
    rcases mode with mode | mode <;> rw [mode] <;> rfl
  have after_eq : after =
      before.setReg slot.address (before.machine.base operand stream + stream.head) := by
    unfold Machine.base Operand.counter
    rw [indexed]
    split at step
    · rename_i isPc
      rw [if_pos isPc, BitVec.add_comm]
      exact step.2.symm
    · rename_i notPc
      rw [if_neg notPc]
      exact step.2.symm
  rw [after_eq]
  constructor
  · rw [reg_setReg, if_pos rfl]
    rcases mode with mode | mode <;> rw [Operand.firstAddress, mode]
  · rcases mode with mode | mode
    all_goals
      rw [Machine.stepped, mode]
      exact ⟨rfl, rfl, rfl, rfl⟩

theorem Makes.effectiveAddress (makes : Makes operand width slot stream base before after)
    (starts : before.machine.base operand stream = base)
    (direct : operand.mode.followsPointer = false) :
    before.machine.effectiveAddress operand width stream = .ok (after.reg slot.address) := by
  have notAbsolute : operand.isAbsolute = false := by
    unfold Operand.isAbsolute
    cases mode : operand.mode <;> simp [mode, AddressingMode.followsPointer] at direct ⊢
  simp [Machine.effectiveAddress, notAbsolute, direct, makes.address, starts]

/-- The pointer is read once the step of the mode has been taken. -/
theorem Makes.effectiveAddress_of_follow {middle : Datapath δ}
    (makes : Makes operand width slot stream base before middle)
    (starts : before.machine.base operand stream = base)
    (notAbsolute : operand.isAbsolute = false) (pointer : operand.mode.followsPointer)
    (step : middle.Step (MicroOp.follow slot.address) after) :
    before.machine.effectiveAddress operand width stream = .ok (after.reg slot.address) := by
  rcases exists_of_step_load step with ⟨loaded, outcome⟩
  have mode : middle.machine.psw.mode = before.machine.psw.mode := by
    rw [makes.alike.psw, Machine.stepped]
    cases operand.mode <;> rfl
  have read := makes.alike.read before.machine.psw.mode .read
    (operand.firstAddress width base stream.head) .word
  change middle.machine.read middle.machine.psw.mode .read (middle.reg slot.address) .word = _
    at outcome
  rw [mode, makes.address] at outcome
  simp only [Machine.effectiveAddress, notAbsolute, pointer, starts, Bool.false_eq_true, if_false,
    if_true]
  rw [← read, outcome]

/-- The micro-operations of an operand in memory find its address. An operand that
is a word of the stream has its address there. -/
theorem Steps.exists_effectiveAddress
    (steps : Steps before (operand.addressOps width slot stream) after)
    (inMemory : operand.mode ≠ .register) (general : operand.reg.isGeneral)
    (settled : operand.takesWord = false → operand.reg = .pc → before.reg .pc = stream.cursor) :
    ∃ address, before.machine.effectiveAddress operand width stream = .ok address ∧
      (operand.isImmediate = false → after.reg slot.address = address) := by
  rcases operand with ⟨mode, reg⟩
  cases mode with
  | register => contradiction
  | registerDeferred =>
      rcases Steps.cons_iff.mp steps with ⟨_, moves, ⟨⟩⟩
      have makes : Makes ⟨.registerDeferred, reg⟩ width slot stream _ before after :=
        moves.makes_move rfl
      exact ⟨_, makes.effectiveAddress (base_eq _ rfl (settled rfl)) rfl, fun _ => rfl⟩
  | autoincrement =>
      by_cases isPc : reg = .pc
      · have immediate : Operand.isImmediate ⟨.autoincrement, reg⟩ := by
          simp [Operand.isImmediate, isPc]
        refine ⟨_, before.machine.effectiveAddress_of_isImmediate immediate width stream, ?_⟩
        simp [immediate]
      · simp only [Operand.addressOps, isPc, if_false] at steps
        have makes : Makes ⟨.autoincrement, reg⟩ width slot stream _ before after :=
          steps.makes_stepUp (.inl rfl) general
        exact ⟨_, makes.effectiveAddress (if_neg isPc) rfl, fun _ => rfl⟩
  | autoincrementDeferred =>
      by_cases isPc : reg = .pc
      · simp only [Operand.addressOps, isPc, if_true] at steps
        rcases Steps.cons_iff.mp steps with ⟨_, takes, ⟨⟩⟩
        have after_eq : after = before.setReg slot.address stream.head := takes.2.symm
        refine ⟨stream.head, ?_, fun _ => ?_⟩
        · simp [Machine.effectiveAddress, Operand.isAbsolute, isPc]
        · rw [after_eq, reg_setReg, if_pos rfl]
      · simp only [Operand.addressOps, isPc, if_false] at steps
        rcases Steps.append_iff.mp steps with ⟨middle, first, rest⟩
        rcases Steps.cons_iff.mp rest with ⟨_, follows, ⟨⟩⟩
        have makes : Makes ⟨.autoincrementDeferred, reg⟩ width slot stream _ before middle :=
          first.makes_stepUp (.inr rfl) general
        have notAbsolute : Operand.isAbsolute ⟨.autoincrementDeferred, reg⟩ = false := by
          simp [Operand.isAbsolute, isPc]
        exact ⟨_, makes.effectiveAddress_of_follow (if_neg isPc) notAbsolute rfl follows,
          fun _ => rfl⟩
  | autodecrement =>
      have makes : Makes ⟨.autodecrement, reg⟩ width slot stream _ before after :=
        steps.makes_stepDown (.inl rfl) general
      exact ⟨_, makes.effectiveAddress (base_eq _ rfl (settled rfl)) rfl, fun _ => rfl⟩
  | autodecrementDeferred =>
      rcases Steps.append_iff.mp steps with ⟨middle, first, rest⟩
      rcases Steps.cons_iff.mp rest with ⟨_, follows, ⟨⟩⟩
      have makes : Makes ⟨.autodecrementDeferred, reg⟩ width slot stream _ before middle :=
        first.makes_stepDown (.inr rfl) general
      exact ⟨_, makes.effectiveAddress_of_follow (base_eq _ rfl (settled rfl)) rfl rfl follows,
        fun _ => rfl⟩
  | index =>
      rcases Steps.cons_iff.mp steps with ⟨_, indexes, ⟨⟩⟩
      have makes : Makes ⟨.index, reg⟩ width slot stream _ before after :=
        indexes.makes_indexed (.inl rfl)
      exact ⟨_, makes.effectiveAddress rfl rfl, fun _ => rfl⟩
  | indexDeferred =>
      rcases Steps.cons_iff.mp steps with ⟨middle, indexes, rest⟩
      rcases Steps.cons_iff.mp rest with ⟨_, follows, ⟨⟩⟩
      have makes : Makes ⟨.indexDeferred, reg⟩ width slot stream _ before middle :=
        indexes.makes_indexed (.inr rfl)
      exact ⟨_, makes.effectiveAddress_of_follow rfl rfl rfl follows, fun _ => rfl⟩

end Datapath

end Pdp11
