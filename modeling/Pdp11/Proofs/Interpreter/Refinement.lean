import Pdp11.Machine.Cycle
import Pdp11.Proofs.Interpreter.Stream
import Pdp11.Proofs.ProgramLength
import Pdp11.Proofs.Selection

/-!
# Steps against the interpreter

A step polls the devices, fetches an instruction, runs its program and looks
for something to serve. With nothing to serve it does what the interpreter
does, whatever the scratch registers hold.
-/

namespace Pdp11

universe u

namespace Machine

variable {δ : Type u} [Bus δ] {machine : Machine δ}

theorem calm_startInstruction (running : machine.runState = .running)
    (untrapped : machine.traps.any = false) (unrelocated : machine.mmu.enabled = false)
    (masked : ∀ line, machine.poll.requests.contains line →
      line.level ≤ machine.psw.priority.toNat) :
    machine.poll.startInstruction.Calm where
  running := running
  untrapped := TrapSet.first?_eq_none_iff.mpr untrapped
  unasked := InterruptRequests.strongestAbove?_eq_none_iff.mpr masked
  unwritten := rfl
  unrelocated := by
    change machine.mmu.startInstruction.enabled = false
    unfold Mmu.startInstruction
    split
    · exact unrelocated
    · exact unrelocated

/-- A machine at the start of an instruction has nothing fetched yet. -/
theorem tracks_startInstruction (calm : machine.poll.startInstruction.Calm) :
    machine.view.Tracks ⟨machine.pc, []⟩ machine.poll.startInstruction where
  calm := calm
  psw := rfl
  ram := rfl
  registers := fun _ _ _ => rfl
  cursor := rfl
  pc := (BitVec.add_zero _).symm
  streams := trivial

/-- With nothing to serve a step ends where the instruction left it. -/
theorem finish_of_calm (calm : machine.Calm) : machine.finish = (.ok .retired, machine) := by
  have nothing : machine.acknowledge? = none := by
    rw [acknowledge?, acknowledgeTrap?, acknowledgeInterrupt?, TrapSet.takeFirst?, calm.untrapped,
      calm.unasked]
    rfl
  rw [finish, service, nothing]
  simp only [restingResult, calm.running]

theorem perform_of_steps {instruction : Instruction} {after : Datapath δ}
    (steps : Datapath.Steps { machine := machine, signals := .quiet } instruction.program after)
    (notRti : instruction.opcode ≠ .rti) :
    machine.perform instruction = (.ok false, after.machine) := by
  rcases instruction.exists_encode with ⟨pipeline, encoded, ops⟩
  have ran : Datapath.run { machine := machine, signals := .quiet } 0 pipeline.ops =
      (.ok .completed, after.machine) := by
    rw [ops]
    exact steps.run_eq 0
  simp only [perform, encoded, execute, ran]
  simp [notRti]

/-- A step does what the interpreter does, unless a trap or an interrupt is to
be served, the instruction is traced or addresses are relocated. -/
theorem step_refines_interpreter (machine : Machine δ) {final : View}
    (running : machine.runState = .running) (untrapped : machine.traps.any = false)
    (untraced : machine.psw.trace = false) (unrelocated : machine.mmu.enabled = false)
    (masked : ∀ line, machine.poll.requests.contains line →
      line.level ≤ machine.psw.priority.toNat)
    (interprets : machine.view.step? = some final) :
    ∃ after, machine.step = (.ok .retired, after) ∧ after.psw = final.psw ∧
      after.ram = final.ram ∧
      ∀ cell : Cell, cell.isScratch = false →
        after.registers.get cell = final.registers.get cell := by
  simp only [View.step?, Option.bind_eq_bind, Option.bind_eq_some_iff] at interprets
  rcases interprets with ⟨⟨word, middle⟩, next, opcode, names, operation, describes, performs⟩
  have calm := calm_startInstruction running untrapped unrelocated masked
  rcases (tracks_startInstruction calm).exists_fetch next names describes performs with
    ⟨instruction, fetched, ready, rfl, rfl, supplies, tracks⟩
  rcases Datapath.exists_performed { machine := fetched, signals := .quiet } tracks rfl describes
    supplies performs with ⟨last, steps, agrees⟩
  have notRti : instruction.opcode ≠ .rti := by
    intro isRti
    rw [isRti] at describes
    contradiction
  have performed : machine.poll.startInstruction.fetchAndPerform = (.ok false, last.machine) := by
    rw [fetchAndPerform, ready]
    exact perform_of_steps steps notRti
  have cycled : machine.cycle = (.ok .retired, last.machine) := by
    have untracedToo : machine.poll.startInstruction.psw.trace = false := untraced
    simp only [cycle, performed, untracedToo]
    exact finish_of_calm agrees.calm
  refine ⟨last.machine, ?_, agrees.psw, agrees.ram, agrees.registers⟩
  rw [step, running]
  exact cycled

/-- `ADD (R0)+,2(R0)`: the source steps the register that the destination is
found by. -/
def addThroughR0 : Machine NoDevices :=
  { ofConfig Config.default .none with
    registers := RegisterFile.cleared.set (.general false 0) 8
    ram := { bytes := #[0x30, 0x64, 2, 0, 0, 0, 0, 0, 5, 0, 0, 0, 7, 0] } }

/-- The words 5 at 8 and 7 at 12 are added at 12. -/
theorem step_addThroughR0 :
    ∃ after, addThroughR0.step = (.ok .retired, after) ∧
      after.ram.readWord? 12 = some 12 ∧
      after.registers.get .programCounter = 4 ∧
      after.registers.get (.general false 0) = 10 := by
  have unmasked (line : InterruptLine) : addThroughR0.poll.requests.contains line →
      line.level ≤ addThroughR0.psw.priority.toNat := by
    intro asks
    cases line <;> contradiction
  rcases addThroughR0.step_refines_interpreter rfl rfl rfl rfl unmasked rfl with
    ⟨after, stepped, -, ram, registers⟩
  refine ⟨after, stepped, ?_, ?_, ?_⟩
  · rw [ram]
    rfl
  · rw [registers _ rfl]
    rfl
  · rw [registers _ rfl]
    rfl

end Machine

end Pdp11
