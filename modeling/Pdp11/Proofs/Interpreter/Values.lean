import Pdp11.Proofs.Interpreter.Places

/-!
# Reading and assigning operands

The machine works on whole words and cuts them to the width of the operation
when it uses them; the interpreter cuts them when it reads them. Up to this
they bring in the same operands and assign the same results.
-/

namespace Pdp11

universe u

/-! ## Words cut to a width -/

@[simp]
theorem and_mask_word (value : Word) : value &&& Width.word.mask = value :=
  BitVec.and_allOnes

theorem setWidth_lowByte (value : Word) :
    (lowByte value).setWidth 16 = value &&& Width.byte.mask := by
  apply BitVec.eq_of_toNat_eq
  have cut : value.toNat &&& 0o377 = value.toNat % 2 ^ 8 :=
    Nat.and_two_pow_sub_one_eq_mod value.toNat 8
  simp [lowByte, Width.mask, cut]
  omega

theorem lowByte_setWidth (byte : Byte) : lowByte (byte.setWidth 16) = byte := by
  apply BitVec.eq_of_toNat_eq
  have small := byte.isLt
  simp [lowByte]
  omega

/-- The low byte is what is left of a word cut to a byte. -/
theorem lowByte_eq_of_and_mask {first second : Word}
    (same : first &&& Width.byte.mask = second &&& Width.byte.mask) :
    lowByte first = lowByte second := by
  rw [← lowByte_setWidth (lowByte first), setWidth_lowByte, same, ← setWidth_lowByte,
    lowByte_setWidth]

namespace View

variable {view : View} {address word value : Word} {width : Width}

/-- A loaded value fits its width. -/
theorem load?_and_mask (loads : view.load? address width = some value) :
    value &&& width.mask = value := by
  cases width with
  | word => exact and_mask_word value
  | byte =>
      obtain ⟨-, -, present⟩ := load?_eq_some_iff.mp loads
      obtain ⟨byte, -, rfl⟩ := Option.map_eq_some_iff.mp present
      rw [← setWidth_lowByte, lowByte_setWidth]

/-- The byte at the address of a word is the low byte of the word. -/
theorem load?_of_word (wordLoads : view.load? address .word = some word)
    (loads : view.load? address width = some value) : word &&& width.mask = value := by
  cases width with
  | word =>
      rw [and_mask_word]
      exact Option.some.inj (wordLoads.symm.trans loads)
  | byte =>
      obtain ⟨-, even, wordPresent⟩ := load?_eq_some_iff.mp wordLoads
      obtain ⟨-, -, present⟩ := load?_eq_some_iff.mp loads
      have low := (Ram.readWord?_eq_some_iff.mp wordPresent).1
      rw [Ram.wordOffset_of_even (even rfl)] at low
      obtain ⟨byte, stored, rfl⟩ := Option.map_eq_some_iff.mp present
      rw [← setWidth_lowByte, Option.some.inj (low.symm.trans stored)]

/-- A store writes no more of a word than its width. -/
theorem store?_of_and_mask {other : Word} (same : value &&& width.mask = other &&& width.mask) :
    view.store? address value width = view.store? address other width := by
  cases width with
  | word =>
      rw [and_mask_word, and_mask_word] at same
      rw [same]
  | byte =>
      unfold store?
      rw [lowByte_eq_of_and_mask same]

end View

namespace Datapath

variable {δ : Type u} [Bus δ] {before : Datapath δ} {view : View} {width : Width} {value : Word}
  {target : View.Place}

/-- The operand comes into its scratch register, perhaps with more than the
operation looks at. -/
theorem exists_fetched (operand : ResolvedOperand) (slot : OperandSlot)
    (tracks : view.Tracks operand.rest before.machine)
    (locates : Locates view before operand.place target)
    (fetches : view.fetch? target width = some value) :
    ∃ after, before.Step (operand.fetch width slot) after ∧
      view.Tracks operand.rest after.machine ∧ Keeps slot.value before after ∧
      after.reg slot.value &&& width.mask = value := by
  have arrives (word : Word) (cut : word &&& width.mask = value) :
      view.Tracks operand.rest (before.setReg slot.value word).machine ∧
        Keeps slot.value before (before.setReg slot.value word) ∧
        (before.setReg slot.value word).reg slot.value &&& width.mask = value := by
    refine ⟨tracks.setScratch slot.isGeneral_value word, keeps_setReg _ _ _, ?_⟩
    rw [reg_setReg, if_pos rfl, cut]
  obtain ⟨place, ops, rest⟩ := operand
  cases locates with
  | @register reg general =>
      have cut : view.reg reg &&& width.mask = value := Option.some.inj fetches
      refine ⟨_, ?_, arrives (view.reg reg) cut⟩
      by_cases isPc : reg = .pc
      · subst isPc
        rw [tracks.cursor]
        exact ⟨rfl, rfl⟩
      · have reads : before.Step (.move slot.value reg)
            (before.setReg slot.value (before.reg reg)) := ⟨rfl, rfl⟩
        have same : before.reg reg = view.reg reg := tracks.reg general isPc
        rw [same] at reads
        simpa [ResolvedOperand.fetch, MicroOp.readRegister, isPc] using reads
  | @memory address _ holds =>
      refine ⟨_, ?_, arrives value (View.load?_and_mask fetches)⟩
      subst holds
      exact step_load
        (Machine.loadSelected_of_load? tracks.calm.unrelocated tracks.ram fetches)
  | @immediate word _ loads =>
      exact ⟨_, ⟨rfl, rfl⟩, arrives word (View.load?_of_word loads fetches)⟩

/-- The result has been assigned, and is still in its register. -/
structure Assigned (stored : View) (result : Reg) (before after : Datapath δ) : Prop where
  agrees : stored.Agrees after.machine
  result : after.reg result = before.reg result
  signals : after.signals = before.signals

theorem assigned_memory {address result : Reg} {stored : View}
    (agrees : view.Agrees before.machine)
    (stores : view.store? (before.reg address) value width = some stored)
    (same : before.reg result &&& width.mask = value &&& width.mask) :
    ∃ after, before.Step (.store address result width .data) after ∧
      Assigned stored result before after := by
  rw [← View.store?_of_and_mask same] at stores
  refine ⟨_, step_store
    (Machine.storeSelected_of_store? agrees.calm.unrelocated agrees.ram stores), ?_, rfl, rfl⟩
  obtain ⟨-, -, ram, -, rfl⟩ := View.store?_eq_some_iff.mp stores
  exact ⟨⟨agrees.calm.running, agrees.calm.untrapped, agrees.calm.unasked,
    agrees.calm.unwritten, agrees.calm.unrelocated⟩, agrees.psw, rfl, agrees.registers⟩

/-- The result goes where the interpreter puts it. Only its own width of it is
looked at, and it is not in the register that an address may need. -/
theorem exists_assigned {operand : ResolvedOperand} {result : Reg} {extend : Bool} {stored : View}
    (agrees : view.Agrees before.machine) (locates : Locates view before operand.place target)
    (assigns : view.assign? target value width extend = some stored)
    (scratch : result.isGeneral = false) (notAddress : result ≠ .d1)
    (same : before.reg result &&& width.mask = value &&& width.mask) :
    ∃ after, Steps before (operand.assign result width extend .data) after ∧
      Assigned stored result before after := by
  obtain ⟨place, ops, rest⟩ := operand
  cases locates with
  | @register reg general =>
      have different := Ne.symm (Reg.ne_of_scratch scratch general)
      have writes (word : Word) : Assigned (view.setReg reg word) result before
          (before.setReg reg word) :=
        ⟨agrees.setReg reg word, by rw [reg_setReg, if_neg different], rfl⟩
      cases width with
      | word =>
          rw [and_mask_word, and_mask_word] at same
          cases assigns
          subst same
          exact ⟨_, .single ⟨rfl, rfl⟩, writes (before.reg result)⟩
      | byte =>
          have low := lowByte_eq_of_and_mask same
          cases assigns
          rw [← low, ← agrees.reg general]
          refine ⟨_, ?_, writes _⟩
          cases extend with
          | true => exact .single ⟨rfl, rfl⟩
          | false => exact .single ⟨rfl, rfl⟩
  | @memory address _ holds =>
      subst holds
      obtain ⟨after, step, assigned⟩ := assigned_memory agrees assigns same
      exact ⟨after, .single step, assigned⟩
  | @immediate word location loads =>
      have moves : before.Step (.loadImm .d1 location) (before.setReg .d1 location) := ⟨rfl, rfl⟩
      have kept : (before.setReg .d1 location).reg result = before.reg result := by
        rw [reg_setReg, if_neg (Ne.symm notAddress)]
      have holds : (before.setReg .d1 location).reg .d1 = location := by
        rw [reg_setReg, if_pos rfl]
      rw [← holds] at assigns
      rw [← kept] at same
      obtain ⟨after, step, assigned⟩ :=
        assigned_memory (agrees.setScratch rfl location) assigns same
      exact ⟨after, .cons moves (.single step), assigned.agrees, assigned.result.trans kept,
        assigned.signals⟩

end Datapath

end Pdp11
