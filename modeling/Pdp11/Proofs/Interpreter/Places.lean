import Pdp11.Proofs.Interpreter.Operands

/-!
# Operands in their places

Once its micro-operations have run, an operand is where the interpreter found
it: in a register, or in memory at the address in its scratch register. Only an
immediate operand has been read already.
-/

namespace Pdp11

universe u

variable {δ : Type u}

theorem View.msb_stride (width : Width) (reg : Reg) : (View.stride width reg).msb = false := by
  unfold View.stride
  split <;> rfl

namespace Operand

theorem step_of_direct {operand : Operand} (direct : operand.mode.isDeferred = false)
    (width : Width) : operand.step width = View.stride width operand.reg := by
  simp [step, View.stride, direct]

theorem step_of_deferred {operand : Operand} (deferred : operand.mode.isDeferred)
    (width : Width) : operand.step width = 2 := by
  simp [step, deferred]

end Operand

namespace View

theorem stepUp?_eq_some_iff {view after : View} {reg : Reg} {amount value : Word}
    (notPc : reg ≠ .pc) :
    view.stepUp? reg amount = some (value, after) ↔
      value = view.reg reg ∧ after = view.setReg reg (view.reg reg + amount) := by
  simp [stepUp?, notPc, eq_comm]

theorem stepUp?_pc_eq_some_iff {view after : View} {amount value : Word} :
    view.stepUp? .pc amount = some (value, after) ↔
      value = view.reg .pc ∧ ∃ word, view.next? = some (word, after) := by
  simp only [stepUp?, if_pos, Option.map_eq_some_iff, Prod.mk.injEq]
  constructor
  · rintro ⟨⟨word, stepped⟩, next, rfl, rfl⟩
    exact ⟨rfl, word, next⟩
  · rintro ⟨rfl, word, next⟩
    exact ⟨(word, after), next, rfl, rfl⟩

end View

namespace Datapath

/-- The machine has at one place the operand that the interpreter has found at
the other. -/
inductive Locates (view : View) (datapath : Datapath δ) : OperandPlace → View.Place → Prop
  | register {reg : Reg} : reg.isGeneral → Locates view datapath (.register reg) (.register reg)
  | memory {slot : Reg} {address : Word} : datapath.reg slot = address →
      Locates view datapath (.memory slot) (.memory address)
  | immediate {value address : Word} : view.load? address .word = some value →
      Locates view datapath (.immediate value address) (.memory address)

variable [Bus δ] {before : Datapath δ} {view final : View} {stream : InstructionStream}
  {operand : Operand} {reg : Reg} {width : Width} {slot : OperandSlot} {place : View.Place}

/-- The micro-operations for an operand find it where the interpreter does. -/
structure Found (operand : Operand) (width : Width) (slot : OperandSlot)
    (stream : InstructionStream) (before : Datapath δ) (final : View) (place : View.Place)
    (after : Datapath δ) : Prop where
  steps : Steps before (operand.addressOps width slot stream) after
  tracks : final.Tracks (operand.rest stream) after.machine
  keeps : Keeps slot.address before after
  locates : Locates final after (operand.place slot stream) place

theorem Points.found {target : Word} {after : Datapath δ}
    (points : Points final (operand.rest stream) slot.address target before after)
    (steps : Steps before (operand.addressOps width slot stream) after)
    (inMemory : operand.place slot stream = .memory slot.address) :
    Found operand width slot stream before final (.memory target) after where
  steps := steps
  tracks := points.tracks
  keeps := points.keeps
  locates := by
    rw [inMemory]
    exact .memory points.points

/-! ## The modes -/

theorem found_registerDeferred (tracks : view.Tracks stream before.machine)
    (general : reg.isGeneral)
    (locates : view.locate? ⟨.registerDeferred, reg⟩ width = some (place, final)) :
    ∃ after, Found ⟨.registerDeferred, reg⟩ width slot stream before final place after := by
  obtain ⟨notPc, rfl, rfl⟩ : reg ≠ .pc ∧ .memory (view.reg reg) = place ∧ view = final := by
    simpa [View.locate?] using locates
  have points := points_setReg slot.isGeneral_address (.refl _ before) tracks (before.reg reg)
  refine ⟨before.setReg slot.address (before.reg reg), Points.found ?_ ?_ rfl⟩
  · rw [← tracks.reg general notPc]
    exact points
  · exact .single ⟨rfl, rfl⟩

theorem found_autoincrement (tracks : view.Tracks stream before.machine) (general : reg.isGeneral)
    (supplied : Operand.takesWord ⟨.autoincrement, reg⟩ → stream.words ≠ [])
    (locates : view.locate? ⟨.autoincrement, reg⟩ width = some (place, final)) :
    ∃ after, Found ⟨.autoincrement, reg⟩ width slot stream before final place after := by
  simp only [View.locate?, Option.bind_eq_bind, Option.bind_eq_some_iff, Option.pure_def,
    Option.some.injEq, Prod.mk.injEq] at locates
  obtain ⟨⟨address, middle⟩, stepped, rfl, rfl⟩ := locates
  by_cases isPc : reg = .pc
  · subst isPc
    obtain ⟨rfl, word, next⟩ := View.stepUp?_pc_eq_some_iff.mp stepped
    obtain ⟨loads, rfl, rfl, tracked⟩ := tracks.next (supplied rfl) next
    refine ⟨before, .nil before, tracked, .refl _ before, ?_⟩
    rw [tracks.cursor]
    exact .immediate ((View.load?_of_ram rfl _ _).trans loads)
  · obtain ⟨rfl, rfl⟩ := (View.stepUp?_eq_some_iff isPc).mp stepped
    obtain ⟨after, steps, points⟩ :=
      points_stepUp tracks slot.isGeneral_address general isPc (View.msb_stride width reg)
    have amount : Operand.step ⟨.autoincrement, reg⟩ width = View.stride width reg :=
      Operand.step_of_direct rfl width
    refine ⟨after, Points.found ?_ ?_ ?_⟩
    · simpa [Operand.rest, Operand.takesWord, isPc] using points
    · simpa [Operand.addressOps, isPc, amount] using steps
    · simp [Operand.place, isPc]

theorem found_autoincrementDeferred (tracks : view.Tracks stream before.machine)
    (general : reg.isGeneral)
    (supplied : Operand.takesWord ⟨.autoincrementDeferred, reg⟩ → stream.words ≠ [])
    (locates : view.locate? ⟨.autoincrementDeferred, reg⟩ width = some (place, final)) :
    ∃ after, Found ⟨.autoincrementDeferred, reg⟩ width slot stream before final place after := by
  simp only [View.locate?, Option.bind_eq_bind, Option.bind_eq_some_iff, Option.pure_def,
    Option.some.injEq, Prod.mk.injEq] at locates
  obtain ⟨⟨pointer, middle⟩, stepped, address, follows, rfl, rfl⟩ := locates
  by_cases isPc : reg = .pc
  · subst isPc
    obtain ⟨rfl, word, next⟩ := View.stepUp?_pc_eq_some_iff.mp stepped
    obtain ⟨loads, rfl, rfl, tracked⟩ := tracks.next (supplied rfl) next
    have atHead : stream.head = address := by
      rw [tracks.cursor] at follows
      exact Option.some.inj (loads.symm.trans follows)
    have points := points_setReg slot.isGeneral_address (.refl _ before) tracked address
    refine ⟨before.setReg slot.address address, Points.found points ?_ rfl⟩
    rw [← atHead]
    exact .single ⟨rfl, rfl⟩
  · obtain ⟨rfl, rfl⟩ := (View.stepUp?_eq_some_iff isPc).mp stepped
    obtain ⟨middle, steps, points⟩ :=
      points_stepUp tracks slot.isGeneral_address general isPc (rfl : BitVec.msb 2#16 = false)
    obtain ⟨after, follow, points⟩ := points.follow slot.isGeneral_address follows
    have joined := steps.append (.single follow)
    have amount : Operand.step ⟨.autoincrementDeferred, reg⟩ width = 2#16 :=
      Operand.step_of_deferred rfl width
    refine ⟨after, Points.found ?_ ?_ rfl⟩
    · simpa [Operand.rest, Operand.takesWord, isPc] using points
    · simpa [Operand.addressOps, isPc, amount] using joined

theorem found_autodecrement (tracks : view.Tracks stream before.machine) (general : reg.isGeneral)
    (locates : view.locate? ⟨.autodecrement, reg⟩ width = some (place, final)) :
    ∃ after, Found ⟨.autodecrement, reg⟩ width slot stream before final place after := by
  simp only [View.locate?, Option.bind_eq_bind, Option.bind_eq_some_iff, Option.pure_def,
    Option.some.injEq, Prod.mk.injEq] at locates
  obtain ⟨middle, lowers, rfl, rfl⟩ := locates
  obtain ⟨after, steps, points⟩ :=
    points_stepDown tracks slot.isGeneral_address general lowers
  have amount : Operand.step ⟨.autodecrement, reg⟩ width = View.stride width reg :=
    Operand.step_of_direct rfl width
  refine ⟨after, Points.found points ?_ rfl⟩
  simpa [Operand.addressOps, amount] using steps

theorem found_autodecrementDeferred (tracks : view.Tracks stream before.machine)
    (general : reg.isGeneral)
    (locates : view.locate? ⟨.autodecrementDeferred, reg⟩ width = some (place, final)) :
    ∃ after, Found ⟨.autodecrementDeferred, reg⟩ width slot stream before final place after := by
  simp only [View.locate?, Option.bind_eq_bind, Option.bind_eq_some_iff, Option.pure_def,
    Option.some.injEq, Prod.mk.injEq] at locates
  obtain ⟨stepped, lowers, address, follows, rfl, rfl⟩ := locates
  obtain ⟨middle, steps, points⟩ :=
    points_stepDown tracks slot.isGeneral_address general lowers
  obtain ⟨after, follow, points⟩ := points.follow slot.isGeneral_address follows
  have joined := steps.append (.single follow)
  have amount : Operand.step ⟨.autodecrementDeferred, reg⟩ width = 2#16 :=
    Operand.step_of_deferred rfl width
  refine ⟨after, Points.found points ?_ rfl⟩
  simpa [Operand.addressOps, amount] using joined

theorem found_index (tracks : view.Tracks stream before.machine) (general : reg.isGeneral)
    (nonempty : stream.words ≠ [])
    (locates : view.locate? ⟨.index, reg⟩ width = some (place, final)) :
    ∃ after, Found ⟨.index, reg⟩ width slot stream before final place after := by
  simp only [View.locate?, Option.bind_eq_bind, Option.bind_eq_some_iff, Option.pure_def,
    Option.some.injEq, Prod.mk.injEq] at locates
  obtain ⟨⟨offset, middle⟩, next, rfl, rfl⟩ := locates
  obtain ⟨after, indexed, points⟩ :=
    points_indexed tracks slot.isGeneral_address general nonempty next
  exact ⟨after, Points.found points (.single indexed) rfl⟩

theorem found_indexDeferred (tracks : view.Tracks stream before.machine) (general : reg.isGeneral)
    (nonempty : stream.words ≠ [])
    (locates : view.locate? ⟨.indexDeferred, reg⟩ width = some (place, final)) :
    ∃ after, Found ⟨.indexDeferred, reg⟩ width slot stream before final place after := by
  simp only [View.locate?, Option.bind_eq_bind, Option.bind_eq_some_iff, Option.pure_def,
    Option.some.injEq, Prod.mk.injEq] at locates
  obtain ⟨⟨offset, stepped⟩, next, address, follows, rfl, rfl⟩ := locates
  obtain ⟨middle, indexed, points⟩ :=
    points_indexed tracks slot.isGeneral_address general nonempty next
  obtain ⟨after, follow, points⟩ := points.follow slot.isGeneral_address follows
  exact ⟨after, Points.found points (.cons indexed (.single follow)) rfl⟩

/-- The micro-operations of every addressing mode find the operand. -/
theorem exists_found (slot : OperandSlot) (tracks : view.Tracks stream before.machine)
    (general : operand.reg.isGeneral) (supplied : operand.takesWord → stream.words ≠ [])
    (locates : view.locate? operand width = some (place, final)) :
    ∃ after, Found operand width slot stream before final place after := by
  obtain ⟨mode, reg⟩ := operand
  cases mode with
  | register =>
      cases locates
      exact ⟨before, .nil before, tracks, .refl _ before, .register general⟩
  | registerDeferred => exact found_registerDeferred tracks general locates
  | autoincrement => exact found_autoincrement tracks general supplied locates
  | autoincrementDeferred => exact found_autoincrementDeferred tracks general supplied locates
  | autodecrement => exact found_autodecrement tracks general locates
  | autodecrementDeferred => exact found_autodecrementDeferred tracks general locates
  | index => exact found_index tracks general (supplied rfl) locates
  | indexDeferred => exact found_indexDeferred tracks general (supplied rfl) locates

end Datapath

end Pdp11
