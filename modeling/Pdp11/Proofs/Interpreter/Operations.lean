import Pdp11.Proofs.Interpreter.Values

/-!
# Operations as micro-operations

Between reading its operands and assigning its result an instruction computes. For each
operation that the interpreter covers, the micro-operations in between leave a result
and signals that realize the outcome of the operation.
-/

namespace Pdp11

universe u

@[simp]
theorem AluOp.run_and_mask (op : AluOp) (first second : Word) (width : Width) (carry : Bool) :
    op.run (first &&& width.mask) (second &&& width.mask) width carry =
      op.run first second width carry := by
  simp only [run, Width.and_mask_and_mask]

@[simp]
theorem ShiftOp.run_and_mask (op : ShiftOp) (operand : Word) (width : Width) (carry : Bool) :
    op.run (operand &&& width.mask) width carry = op.run operand width carry := by
  simp only [run, Width.and_mask_and_mask]

namespace Datapath

variable {δ : Type u}

/-- The scratch registers hold the operands that the operation takes. -/
structure Holds (operation : Operation) (width : Width) (source destination : Word)
    (datapath : Datapath δ) : Prop where
  source : operation.takesSource → datapath.reg .s0 &&& width.mask = source
  destination : operation.readsDestination → datapath.reg .d0 &&& width.mask = destination
  signals : datapath.signals = .quiet

/-- What is in `result`, with the signals beside it, realizes the outcome of the operation on its
operands. -/
structure Computed (operation : Operation) (rule : FlagRule) (width : Width)
    (source destination : Word) (result : Reg) (before after : Datapath δ) : Prop where
  agrees (view : View) : view.Agrees before.machine → view.Agrees after.machine
  address : after.reg .d1 = before.reg .d1
  realized :
    (operation.compute width source destination before.machine.psw.codes).Realizes rule width
      before.machine.psw.codes (after.reg result, after.signals)

section

variable {operation : Operation} {rule : FlagRule} {width : Width} {source destination : Word}
  {result : Reg} {before after : Datapath δ} {value : Word} {signals : Signals}

theorem computed_setReg (scratch : result.isGeneral = false) (notAddress : result ≠ .d1)
    (realizes : (operation.compute width source destination before.machine.psw.codes).Realizes
      rule width before.machine.psw.codes (value, signals)) :
    Computed operation rule width source destination result before
      ({ before with signals := signals }.setReg result value) where
  agrees := fun _ agrees => agrees.setScratch scratch value
  address := by
    rw [reg_setReg, if_neg notAddress]
    rfl
  realized := by
    rw [reg_setReg, if_pos rfl]
    exact realizes

/-- Before it computes the result an instruction may use another scratch
register. -/
theorem Computed.of_setReg {free : Reg} (scratch : free.isGeneral = false)
    (notAddress : free ≠ .d1)
    (computed : Computed operation rule width source destination result
      ({ before with signals := signals }.setReg free value) after) :
    Computed operation rule width source destination result before after where
  agrees := fun view agrees => computed.agrees view (agrees.setScratch scratch value)
  address := by
    rw [computed.address, reg_setReg, if_neg notAddress]
    rfl
  realized := computed.realized

/-- What only fills `t0` leaves the signals quiet. -/
theorem computed_t0 (holds : Holds operation width source destination before)
    (realizes : (operation.compute width source destination before.machine.psw.codes).Realizes
      rule width before.machine.psw.codes (value, .quiet)) :
    Computed operation rule width source destination .t0 before (before.setReg .t0 value) := by
  rw [← holds.signals] at realizes
  exact computed_setReg rfl nofun realizes

end

variable [Bus δ]

/-- From the operands that the operation takes, `ops` compute what it comes to. -/
def Implements (δ : Type u) [Bus δ] (operation : Operation) (rule : FlagRule) (width : Width)
    (ops : List MicroOp) (result : Reg) : Prop :=
  ∀ (before : Datapath δ) (source destination : Word),
    Holds operation width source destination before →
      ∃ after, Steps before ops after ∧
        Computed operation rule width source destination result before after

variable {operation : Operation} {rule : FlagRule} {width : Width}

/-- Nothing is to be computed when the source is the result. -/
theorem implements_move : Implements δ .move .logical width [] .s0 := by
  intro before source destination holds
  have realizes := Outcome.realizes_logical width source before.machine.psw.codes .quiet
  rw [← holds.source rfl, ← holds.signals] at realizes
  rw [← holds.source rfl]
  exact ⟨before, .nil before, fun _ agrees => agrees, rfl, realizes.of_and_mask⟩

theorem implements_test : Implements δ .test .test width [] .d0 := by
  intro before source destination holds
  have realizes := Outcome.realizes_test width destination before.machine.psw.codes .quiet
  rw [← holds.destination rfl, ← holds.signals] at realizes
  rw [← holds.destination rfl]
  exact ⟨before, .nil before, fun _ agrees => agrees, rfl, realizes.of_and_mask⟩

/-- The unit takes the operands in the order of their names, or the other way around. -/
theorem implements_binary {op : AluOp} (reversed : Bool) (takes : operation.takesSource)
    (reads : operation.readsDestination)
    (realizes : ∀ source destination old,
      (operation.compute width source destination old).Realizes rule width old
        (if reversed then op.run destination source width old.carry
          else op.run source destination width old.carry)) :
    Implements δ operation rule width
      [if reversed then .alu op .t0 .d0 .s0 width else .alu op .t0 .s0 .d0 width] .t0 := by
  intro before source destination holds
  have atSource := holds.source takes
  have atDestination := holds.destination reads
  subst atSource atDestination
  have computes := realizes (before.reg .s0 &&& width.mask) (before.reg .d0 &&& width.mask)
    before.machine.psw.codes
  rw [AluOp.run_and_mask, AluOp.run_and_mask] at computes
  cases reversed with
  | false => exact ⟨_, .single ⟨rfl, rfl⟩, computed_setReg rfl nofun computes⟩
  | true => exact ⟨_, .single ⟨rfl, rfl⟩, computed_setReg rfl nofun computes⟩

theorem implements_unary {op : AluOp} (reads : operation.readsDestination)
    (realizes : ∀ source destination old,
      (operation.compute width source destination old).Realizes rule width old
        (op.run destination destination width old.carry)) :
    Implements δ operation rule width [.alu op .t0 .d0 .d0 width] .t0 := by
  intro before source destination holds
  have atDestination := holds.destination reads
  subst atDestination
  have computes := realizes source (before.reg .d0 &&& width.mask) before.machine.psw.codes
  rw [AluOp.run_and_mask] at computes
  exact ⟨_, .single ⟨rfl, rfl⟩, computed_setReg rfl nofun computes⟩

theorem implements_shift (op : ShiftOp) :
    Implements δ (.shift op) .shift width [.shift op .t0 .d0 width] .t0 := by
  intro before source destination holds
  have atDestination := holds.destination rfl
  subst atDestination
  have computes := Outcome.realizes_shift op width (before.reg .d0 &&& width.mask)
    before.machine.psw.codes
  rw [ShiftOp.run_and_mask] at computes
  exact ⟨_, .single ⟨rfl, rfl⟩, computed_setReg rfl nofun computes⟩

/-- The inverted source is cut to the width before it is used. -/
theorem implements_clearBits :
    Implements δ .clearBits .logical width
      [.alu .not .t1 .s0 .s0 width, .alu .and .t0 .d0 .t1 width] .t0 := by
  intro before source destination holds
  have atSource := holds.source rfl
  have atDestination := holds.destination rfl
  subst atSource atDestination
  let old := before.machine.psw.codes
  let inverted := AluOp.not.run (before.reg .s0) (before.reg .s0) width old.carry
  let middle := { before with signals := inverted.2 }.setReg .t1 inverted.1
  have inverts : before.Step (.alu .not .t1 .s0 .s0 width) middle := ⟨rfl, rfl⟩
  have otherKept : middle.reg .d0 = before.reg .d0 := by
    rw [reg_setReg, if_neg nofun]
    rfl
  have holdsInverted : middle.reg .t1 = inverted.1 := by
    rw [reg_setReg, if_pos rfl]
  have sameInverted :
      width.part (middle.reg .t1) = width.part (~~~(before.reg .s0 &&& width.mask)) := by
    rw [holdsInverted]
    exact width.part_and_mask (~~~(before.reg .s0 &&& width.mask))
  have sameOther : width.part (middle.reg .d0) = width.part (before.reg .d0 &&& width.mask) := by
    rw [otherKept, width.part_and_mask]
  have computes := Outcome.realizes_and width (before.reg .d0 &&& width.mask)
    (~~~(before.reg .s0 &&& width.mask)) old
  rw [← run_of_same_part .and sameOther sameInverted] at computes
  exact ⟨_, .cons inverts (.single ⟨rfl, rfl⟩),
    .of_setReg rfl (by decide) (computed_setReg rfl (by decide) computes)⟩

theorem implements_clear : Implements δ .clear .clear width [.loadImm .t0 0] .t0 := by
  intro before source destination holds
  exact ⟨_, .single ⟨rfl, rfl⟩, computed_t0 holds (Outcome.realizes_clear width _ .quiet)⟩

theorem implements_signExtend :
    Implements δ .signExtend .signExtend width [.signExtend .t0] .t0 := by
  intro before source destination holds
  exact ⟨_, .single ⟨rfl, rfl⟩, computed_t0 holds (Outcome.realizes_signExtend width _ .quiet)⟩

theorem implements_swapBytes :
    Implements δ .swapBytes .swapBytes .word [.swab .t0 .d0] .t0 := by
  intro before source destination holds
  have atDestination := holds.destination rfl
  rw [and_mask_word] at atDestination
  subst atDestination
  exact ⟨_, .single ⟨rfl, rfl⟩,
    computed_t0 holds (Outcome.realizes_swapBytes (before.reg .d0) _ .quiet)⟩

end Datapath

end Pdp11
