import Pdp11.Proofs.HandlerEntry
import Pdp11.Proofs.ProgramLength

/-!
# Return from a handler

A return from interrupt that finds on the kernel stack what entry to the
handler left there brings back every register that a program can see,
whatever mode and register set were interrupted.
-/

namespace Pdp11

universe u

variable {δ : Type u} [Bus δ]

namespace Machine

/-! ## Return from interrupt -/

/-- The two words on top of the stack come into the scratch registers. -/
theorem run_rti {machine : Machine δ} {instruction : Instruction} {pc status : Word}
    (isRti : instruction.opcode = .rti) (kernel : machine.psw.mode = .kernel)
    (pcHeld : machine.KernelHolds (machine.stackPointer .kernel) pc)
    (statusHeld : machine.KernelHolds (machine.stackPointer .kernel + 2) status) :
    ∃ popped : Datapath δ,
      Datapath.run { machine := machine, signals := .quiet } 0 instruction.program =
        popped.run 4 [.loadPsw .t1 .ordinary, .jump instruction.pc .t0] ∧
      popped.machine.psw = machine.psw ∧
      popped.machine.registers =
        (((machine.registers.set (.scratch 6) pc).set (.stackPointer .kernel)
          (machine.stackPointer .kernel + 2)).set (.scratch 7) status).set (.stackPointer .kernel)
          (machine.stackPointer .kernel + 4) := by
  have program : instruction.program = MicroOp.pop .t0 ++ (MicroOp.pop .t1 ++
      [.loadPsw .t1 .ordinary, .jump instruction.pc .t0]) := by
    rw [Instruction.program, isRti]
    rfl
  obtain ⟨first, firstPop, pcPopped⟩ := Datapath.pop_of_holds
    { machine := machine, signals := .quiet } (by decide : Reg.t0 ≠ .sp) kernel pcHeld
  have raised : first.machine.stackPointer .kernel = machine.stackPointer .kernel + 2 := by
    rw [stackPointer, pcPopped.registers, RegisterFile.get_set, if_pos rfl]
  have statusKept := statusHeld.of_sameMapping pcPopped.mapping pcPopped.ram
  rw [← raised] at statusKept
  obtain ⟨second, secondPop, statusPopped⟩ := first.pop_of_holds (by decide : Reg.t1 ≠ .sp)
    (pcPopped.psw ▸ kernel) statusKept
  refine ⟨second, ?_, statusPopped.psw.trans pcPopped.psw, ?_⟩
  · rw [program, firstPop.run_append, secondPop.run_append]
    rfl
  · have twice : machine.stackPointer .kernel + 2 + 2 = machine.stackPointer .kernel + 4 := by
      rw [BitVec.add_assoc]
      rfl
    rw [statusPopped.registers, raised, pcPopped.registers, twice]
    rfl

/-- A return in kernel mode takes the program counter and the status word from
the stack. -/
theorem execute_rti {machine : Machine δ} {instruction : Instruction} {pc status : Word}
    (isRti : instruction.opcode = .rti) (kernel : machine.psw.mode = .kernel)
    (pcHeld : machine.KernelHolds (machine.stackPointer .kernel) pc)
    (statusHeld : machine.KernelHolds (machine.stackPointer .kernel + 2) status) :
    ∃ pipeline, instruction.encode = .ok pipeline ∧
      (machine.execute pipeline).result = .ok (.transferred 5) ∧
      (machine.execute pipeline).machine.psw = .ofBits status ∧
      ∀ cell : Cell, cell.isScratch = false →
        (machine.execute pipeline).machine.registers.get cell =
          if cell = .programCounter then pc
          else if cell = .stackPointer .kernel then machine.stackPointer .kernel + 4
          else machine.registers.get cell := by
  obtain ⟨pipeline, encoded, ops⟩ := instruction.exists_encode
  obtain ⟨popped, ran, psw, registers⟩ := run_rti isRti kernel pcHeld statusHeld
  refine ⟨pipeline, encoded, ?_⟩
  simp only [execute, ops, ran]
  refine ⟨rfl, ?_, ?_⟩
  · change popped.machine.psw.returned (.ofBits (popped.machine.registers.get (.scratch 7))) = _
    rw [psw, Psw.returned, if_pos kernel, registers]
    simp
  · intro cell visible
    have apart (number : Fin 8) : Cell.scratch number ≠ cell := by
      rintro rfl
      contradiction
    change (popped.machine.registers.set .programCounter
      (popped.machine.registers.get (.scratch 6))).get cell = _
    rw [registers]
    by_cases isPc : cell = .programCounter
    · simp [isPc]
    · by_cases isPointer : cell = .stackPointer .kernel
      · simp [isPointer]
      · simp [isPc, isPointer, Ne.symm isPc, Ne.symm isPointer, apart]

/-! ## The round trip -/

namespace Entered

variable {interrupted serving : Machine δ} {start status : Word}

omit [Bus δ] in
theorem pc (entered : Entered interrupted start status serving) : serving.pc = start := by
  have value := entered.registers .programCounter rfl
  rwa [if_pos rfl] at value

omit [Bus δ] in
theorem pointer (entered : Entered interrupted start status serving) :
    serving.stackPointer .kernel = interrupted.stackPointer .kernel - 4 := by
  have value := entered.registers (.stackPointer .kernel) rfl
  rwa [if_neg (by simp), if_pos rfl] at value

/-- A return right after entry takes back what entry did. -/
theorem execute_rti (entered : Entered interrupted start status serving)
    (kernel : (Psw.ofBits status).mode = .kernel) {rti : Instruction} (isRti : rti.opcode = .rti) :
    ∃ pipeline, rti.encode = .ok pipeline ∧
      (serving.execute pipeline).result = .ok (.transferred 5) ∧
      (serving.execute pipeline).machine.psw = interrupted.psw ∧
      ∀ cell : Cell, cell.isScratch = false →
        (serving.execute pipeline).machine.registers.get cell = interrupted.registers.get cell := by
  have inKernel : serving.psw.mode = .kernel := by
    rw [entered.psw]
    exact kernel
  have pcHeld := entered.pcHeld
  have statusHeld := entered.statusHeld
  have next : interrupted.stackPointer .kernel - 2 = interrupted.stackPointer .kernel - 4 + 2 := by
    bv_omega
  rw [← entered.pointer] at pcHeld
  rw [next, ← entered.pointer] at statusHeld
  obtain ⟨pipeline, encoded, result, status, context⟩ :=
    Machine.execute_rti isRti inKernel pcHeld statusHeld
  refine ⟨pipeline, encoded, result, status.trans (Psw.ofBits_bits _), ?_⟩
  intro cell visible
  rw [context cell visible]
  by_cases isPc : cell = .programCounter
  · rw [if_pos isPc, isPc]
    rfl
  · rw [if_neg isPc]
    by_cases isPointer : cell = .stackPointer .kernel
    · rw [if_pos isPointer, isPointer, entered.pointer]
      exact BitVec.sub_add_cancel _ _
    · rw [if_neg isPointer, entered.registers cell visible, if_neg isPc, if_neg isPointer]

end Entered

/-- The emergency stack takes the place of the kernel stack. -/
def switchesStack (machine : Machine δ) : Prop :=
  machine.traps.first? = some .stackOverflow ∧ machine.traps.redZone

omit [Bus δ] in
/-- What is served is an overflow into the red zone, another trap or, when no
trap is pending, an interrupt. -/
theorem acknowledge?_cases {machine : Machine δ} {acknowledged : Acknowledged δ}
    (chosen : machine.acknowledge? = some acknowledged) :
    (machine.switchesStack ∧ ∃ traps, acknowledged =
      { vector := TrapClass.stackOverflow.vector
        retriable := false
        machine :=
          { machine with traps := traps }.setStackPointer .kernel emergencyStack }) ∨
    (¬ machine.switchesStack ∧ ∃ kind traps, machine.traps.first? = some kind ∧ acknowledged =
      { vector := kind.vector
        retriable := !kind.isAbort
        machine := { machine with traps := traps } }) ∨
    (machine.traps.first? = none ∧ ∃ line : InterruptLine, ∃ requests runState, acknowledged =
      { vector := line.vector
        retriable := true
        machine :=
          { machine with
            requests := requests
            runState := runState } }) := by
  rw [acknowledge?, Option.orElse_eq_orElse, Option.orElse_eq_or, Option.or_eq_some_iff] at chosen
  rcases chosen with trap | ⟨noTrap, interrupt⟩
  · obtain ⟨⟨kind, traps⟩, taken, rfl⟩ := Option.map_eq_some_iff.mp trap
    obtain ⟨first, isFirst, same⟩ := Option.map_eq_some_iff.mp taken
    cases same
    have redZone : (if kind = .trace then machine.traps.erase kind
        else (machine.traps.erase kind).erase .trace).redZone = machine.traps.redZone := by
      split <;> rfl
    dsimp only
    generalize (if kind = .trace then machine.traps.erase kind
      else (machine.traps.erase kind).erase .trace) = rest at redZone ⊢
    split
    · rename_i overflow
      rw [redZone] at overflow
      obtain ⟨rfl, inRedZone⟩ := overflow
      exact .inl ⟨⟨isFirst, inRedZone⟩, _, rfl⟩
    · rename_i notOverflow
      rw [redZone] at notOverflow
      refine .inr (.inl ⟨?_, kind, _, isFirst, rfl⟩)
      rintro ⟨isOverflow, inRedZone⟩
      exact notOverflow ⟨Option.some.inj (isFirst.symm.trans isOverflow), inRedZone⟩
  · obtain ⟨line, -, rfl⟩ := Option.map_eq_some_iff.mp interrupt
    have noneFirst : machine.traps.first? = none :=
      Option.map_eq_none_iff.mp (Option.map_eq_none_iff.mp noTrap)
    exact .inr (.inr ⟨noneFirst, line, _, _, rfl⟩)

omit [Bus δ] in
/-- Choosing an exception leaves alone what it interrupts. -/
theorem acknowledge?_eq_some {machine : Machine δ} {acknowledged : Acknowledged δ}
    (sameStack : ¬ machine.switchesStack) (chosen : machine.acknowledge? = some acknowledged) :
    acknowledged.machine.registers = machine.registers ∧
      acknowledged.machine.psw = machine.psw ∧ acknowledged.machine.mmu = machine.mmu ∧
      acknowledged.machine.ram = machine.ram := by
  rcases acknowledge?_cases chosen with
    ⟨switches, -⟩ | ⟨-, kind, traps, -, rfl⟩ | ⟨-, line, requests, runState, rfl⟩
  · exact absurd switches sameStack
  · exact ⟨rfl, rfl, rfl, rfl⟩
  · exact ⟨rfl, rfl, rfl, rfl⟩

theorem service_of_tryEntry {machine : Machine δ} {acknowledged : Acknowledged δ}
    (chosen : machine.acknowledge? = some acknowledged)
    (entered : (acknowledged.machine.tryEntry acknowledged.vector).1 = .ok none) :
    machine.service = (.ok (some acknowledged.vector),
      (acknowledged.machine.tryEntry acknowledged.vector).2) := by
  have outcome : acknowledged.machine.tryEntry acknowledged.vector =
      (.ok none, (acknowledged.machine.tryEntry acknowledged.vector).2) := Prod.ext entered rfl
  rw [service, chosen]
  dsimp only
  rw [enter]
  dsimp only
  rw [outcome]
  rfl

/-- Entry to a handler that runs in kernel mode, and a return from it, bring
back the interrupted context. -/
theorem rti_of_service (machine : Machine δ) {acknowledged : Acknowledged δ}
    (chosen : machine.acknowledge? = some acknowledged) (sameStack : ¬ machine.switchesStack)
    (entered : (acknowledged.machine.tryEntry acknowledged.vector).1 = .ok none)
    (statusInRam : machine.KernelInRam (machine.stackPointer .kernel - 2))
    (pcInRam : machine.KernelInRam (machine.stackPointer .kernel - 4)) :
    ∃ start status,
      (acknowledged.machine.vectorWords acknowledged.vector).1 = .ok (start, status) ∧
      let serving := machine.service.2
      machine.service.1 = .ok (some acknowledged.vector) ∧ serving.pc = start ∧
        serving.psw = { Psw.ofBits status with previousMode := machine.psw.mode } ∧
        serving.stackPointer .kernel = machine.stackPointer .kernel - 4 ∧
        ((Psw.ofBits status).mode = .kernel →
          ∀ rti : Instruction, rti.opcode = .rti →
            ∃ pipeline, rti.encode = .ok pipeline ∧
              let resumed := (serving.execute pipeline).machine
              (serving.execute pipeline).result = .ok (.transferred 5) ∧
                resumed.pc = machine.pc ∧ resumed.psw = machine.psw ∧
                (∀ mode, resumed.stackPointer mode = machine.stackPointer mode) ∧
                ∀ alternate number, resumed.registers.get (.general alternate number) =
                  machine.registers.get (.general alternate number)) := by
  obtain ⟨registers, psw, mmu, ram⟩ := acknowledge?_eq_some sameStack chosen
  have pointer : acknowledged.machine.stackPointer .kernel = machine.stackPointer .kernel :=
    congrArg (fun file : RegisterFile => file.get (.stackPointer .kernel)) registers
  have sameMapping : machine.mmu.SameMapping acknowledged.machine.mmu := mmu ▸ .refl _
  have sameSize : acknowledged.machine.ram.size = machine.ram.size := congrArg Ram.size ram
  obtain ⟨start, status, after, words, served⟩ := entered_of_tryEntry entered
    (pointer ▸ statusInRam.of_sameMapping sameMapping sameSize)
    (pointer ▸ pcInRam.of_sameMapping sameMapping sameSize)
  refine ⟨start, status, congrArg Prod.fst words, ?_⟩
  rw [service_of_tryEntry chosen entered]
  refine ⟨rfl, served.pc, ?_, served.pointer.trans (by rw [pointer]), ?_⟩
  · rw [served.psw, psw]
    rfl
  · intro kernel rti isRti
    obtain ⟨pipeline, encoded, result, status, restored⟩ := served.execute_rti kernel isRti
    rw [psw] at status
    rw [registers] at restored
    exact ⟨pipeline, encoded, result, restored _ rfl, status, fun _ => restored _ rfl,
      fun _ _ => restored _ rfl⟩

/-- A program in user mode, with the second register set, that an EMT has
interrupted; kernel page 0 is mapped to the start of memory. -/
def interruptedByEmt : Machine NoDevices :=
  { ofConfig Config.default .none with
    registers :=
      ((RegisterFile.cleared.set .programCounter 0o2002).set (.stackPointer .user) 0o777).set
        (.stackPointer .kernel) 0o10
    psw := .ofBits 0o144011
    ram :=
      { bytes := #[0, 0, 0, 0, 0, 0, 0, 0, 0, 0, 0, 0, 0, 0, 0, 0, 0, 0, 0, 0, 0, 0, 0, 0, 0, 2,
          0o340, 0] }
    mmu :=
      { Mmu.new .pdp1170 with
        mmr0 := { Mmr0.cleared with enabled := true }
        pages := PageTable.cleared.set
          { mode := .kernel, space := .instruction, number := 0 }
          { descriptor := .loaded 0o77406, base := 0 } }
    traps := TrapSet.none.insert .emt }

/-- The EMT enters its handler at 1000 in kernel mode, and a return from there
resumes the program. -/
theorem rti_of_emt :
    interruptedByEmt.service.1 = .ok (some 0o30) ∧ interruptedByEmt.service.2.pc = 0o1000 ∧
      ∀ rti : Instruction, rti.opcode = .rti →
        ∃ pipeline, rti.encode = .ok pipeline ∧
          (interruptedByEmt.service.2.execute pipeline).machine.pc = 0o2002 ∧
          (interruptedByEmt.service.2.execute pipeline).machine.psw = .ofBits 0o144011 := by
  have chosen : interruptedByEmt.acknowledge? =
      some
        { vector := 0o30
          retriable := true
          machine := { interruptedByEmt with traps := .none } } := rfl
  have sameStack : ¬ interruptedByEmt.switchesStack := by
    rintro ⟨-, inRedZone⟩
    contradiction
  obtain ⟨start, status, words, served, startPc, -, -, resumes⟩ :=
    rti_of_service interruptedByEmt chosen sameStack rfl ⟨6, rfl⟩ ⟨4, rfl⟩
  have known : ({ interruptedByEmt with traps := .none }.vectorWords 0o30).1 =
      .ok (0o1000, 0o340) := rfl
  cases known.symm.trans words
  refine ⟨served, startPc, ?_⟩
  intro rti isRti
  obtain ⟨pipeline, encoded, -, pc, psw, -⟩ := resumes rfl rti isRti
  exact ⟨pipeline, encoded, pc, psw⟩

end Machine

end Pdp11
