import Pdp11.Machine.Cycle
import Pdp11.Proofs.ExceptionChoice
import Pdp11.Proofs.Fetch
import Pdp11.Proofs.ProgramLength

/-!
# What a halt leaves

A halt stops the machine behind its word. Exceptions are served after it all
the same, so a request above the priority of the processor is acknowledged by a
machine that will not run its handler.
-/

namespace Pdp11

universe u

variable {δ : Type u} [Bus δ]

namespace Machine

variable {machine fetched : Machine δ} {instruction : Instruction}

/-- A halt is a single word, and its fetch moves the program counter alone. -/
theorem fetch_of_halt (ready : machine.fetch = (.ready instruction, fetched))
    (halts : instruction.opcode = .halt) :
    ∃ reached, Accessed machine reached ∧ fetched = reached.setPc (machine.pc + 2) ∧
      fetched.traps = machine.traps.insertIf
        (machine.asksTrap machine.psw.mode .fetch machine.pc .word) .mmuTrap := by
  rcases fetch_eq_ready_iff.mp ready with ⟨word, after, opcode, succeeds, -, rest⟩
  rcases fetchExtension_ready rest with ⟨words, -, rfl, -⟩
  change opcode = .halt at halts
  subst halts
  cases rest
  rcases fetchWord_eq_ok_iff.mp succeeds with ⟨reached, outcome, rfl⟩
  have accessed := machine.accessed_read machine.psw.mode .fetch machine.pc .word
  have traps := machine.traps_read machine.psw.mode .fetch machine.pc .word
  rw [outcome] at accessed traps
  exact ⟨reached, accessed, rfl, traps⟩

theorem perform_of_halt (kernel : machine.psw.mode = .kernel)
    (halts : instruction.opcode = .halt) :
    machine.perform instruction = (.ok false, { machine with runState := .halted }) := by
  rcases instruction.exists_encode with ⟨pipeline, encoded, ops⟩
  have inKernel : machine.inKernel = true := decide_eq_true kernel
  have program : instruction.program = [.halt] := by
    rw [Instruction.program, halts]
  have ran : Datapath.run { machine := machine, signals := .quiet } 0 pipeline.ops =
      (.ok (.transferred 0), { machine with runState := .halted }) := by
    rw [ops, program, Datapath.run_cons]
    simp only [MicroOp.effect, inKernel, if_true]
    rfl
  simp only [perform, encoded, execute, ran]
  simp [halts]

/-- The next step carries out a halt in kernel mode, with no trap pending before
it or raised by its fetch. -/
structure HaltsNext (machine : Machine δ) (instruction : Instruction) (fetched : Machine δ) :
    Prop where
  running : machine.runState = .running
  kernel : machine.psw.mode = .kernel
  untrapped : machine.traps.any = false
  ready : machine.poll.startInstruction.fetch = (.ready instruction, fetched)
  halts : instruction.opcode = .halt
  unasked : fetched.traps.contains .mmuTrap = false

/-- `after` is `machine` stopped behind a halt: no handler is entered, and the
requests are those that stood after the poll. -/
structure StoppedInPlace (machine after : Machine δ) : Prop where
  pc : after.pc = machine.pc + 2
  runState : after.runState = .halted
  ram : after.ram = machine.ram
  psw : after.psw = machine.psw
  pointers (mode : Mode) : after.stackPointer mode = machine.stackPointer mode
  requests : after.requests = machine.poll.requests

namespace HaltsNext

/-- The machine stops in place before it serves an exception. -/
theorem stoppedInPlace (next : machine.HaltsNext instruction fetched) :
    StoppedInPlace machine { fetched with runState := .halted } := by
  rcases fetch_of_halt next.ready next.halts with ⟨reached, accessed, rfl, -⟩
  constructor
  · exact pc_setPc reached _
  · rfl
  · exact accessed.ram
  · exact accessed.psw
  · intro mode
    change (reached.registers.set .programCounter _).get (.stackPointer mode) = _
    rw [RegisterFile.get_set, if_neg (by simp), accessed.registers]
    rfl
  · exact accessed.sameControl.requests

theorem step_eq_finish (next : machine.HaltsNext instruction fetched) :
    machine.step = ({ fetched with runState := .halted } : Machine δ).finish := by
  have kernel : fetched.psw.mode = .kernel := by
    rw [← next.kernel]
    exact congrArg Psw.mode next.stoppedInPlace.psw
  have performed : machine.poll.startInstruction.fetchAndPerform =
      (.ok false, { fetched with runState := .halted }) := by
    rw [fetchAndPerform, next.ready]
    exact perform_of_halt kernel next.halts
  simp only [step, next.running, cycle, performed]
  simp [traceAfter]

theorem fetched_untrapped (next : machine.HaltsNext instruction fetched) :
    fetched.traps.any = false := by
  have unasked := next.unasked
  rcases fetch_of_halt next.ready next.halts with ⟨-, -, -, traps⟩
  rw [traps, TrapSet.contains_insertIf, Bool.or_eq_false_iff, decide_eq_true rfl,
    Bool.and_true] at unasked
  rw [traps]
  apply TrapSet.any_eq_false_iff.mpr
  intro kind
  have absent : machine.poll.startInstruction.traps.contains kind = false :=
    TrapSet.any_eq_false_iff.mp next.untrapped kind
  rw [TrapSet.contains_insertIf, absent, Bool.false_or, unasked.2, Bool.false_and]

end HaltsNext

/-- A machine that has halted, with no trap pending, serves a request above its
priority, and what it answers is not that it has halted. -/
theorem finish_of_halted {line : InterruptLine} (halted : machine.runState = .halted)
    (untrapped : machine.traps.any = false)
    (strongest : machine.requests.IsStrongest machine.psw.priority.toNat line) :
    machine.finish.2.requests = machine.requests.erase line ∧
    ∀ answer, machine.finish.1 = .ok answer →
      (∃ vector, answer = .trapped vector) ∧ machine.finish.2.runState = .halted := by
  have first := TrapSet.first?_eq_none_iff.mpr untrapped
  have found := InterruptRequests.strongestAbove?_eq_some_iff.mpr strongest
  rcases acknowledge?_of_strongestAbove? first found with
    ⟨acknowledged, chosen, -, -, requests, runState⟩
  have served := requests_service chosen
  unfold finish
  split <;> rename_i outcome <;> rw [outcome] at served
  · constructor
    · exact served.trans requests
    · intro answer resumed
      simp [latch] at resumed
  · rcases entered_of_service chosen outcome with ⟨-, -, entered⟩
    constructor
    · exact served.trans requests
    · rintro answer ⟨⟩
      constructor
      · exact ⟨_, rfl⟩
      · rw [entered.runState, runState, halted]
        rfl
  · rcases exists_vector_of_service chosen outcome with ⟨vector, isSome⟩
    cases isSome

/-- With nothing to serve it stays as it is. -/
theorem finish_of_halted_of_masked (halted : machine.runState = .halted)
    (untrapped : machine.traps.any = false)
    (masked : ∀ line, machine.requests.contains line →
      line.level ≤ machine.psw.priority.toNat) : machine.finish = (.ok .halted, machine) := by
  have nothing : machine.acknowledge? = none := by
    apply acknowledge?_eq_none_iff.mpr
    constructor
    · exact TrapSet.first?_eq_none_iff.mpr untrapped
    · exact InterruptRequests.strongestAbove?_eq_none_iff.mpr masked
  rw [finish, service, nothing]
  simp only [restingResult, halted]

/-- A request above the priority is acknowledged by the halt and lost: if its
handler is entered, the halted machine stands in front of it. -/
theorem HaltsNext.loses {line : InterruptLine} (next : machine.HaltsNext instruction fetched)
    (strongest : machine.poll.requests.IsStrongest machine.psw.priority.toNat line) :
    machine.step.2.requests = machine.poll.requests.erase line ∧
    ∀ answer, machine.step.1 = .ok answer →
      (∃ vector, answer = .trapped vector) ∧
        machine.step.2.step = (.ok .halted, machine.step.2) := by
  have stopped := next.stoppedInPlace
  rw [← stopped.requests, ← stopped.psw] at strongest
  rcases finish_of_halted stopped.runState next.fetched_untrapped strongest with
    ⟨requests, answers⟩
  rw [← next.step_eq_finish] at requests answers
  constructor
  · rw [requests, stopped.requests]
  · intro answer outcome
    rcases answers answer outcome with ⟨entered, halted⟩
    constructor
    · exact entered
    · rw [step, halted]

/-- A halt stops the machine in place if and only if the devices ask for nothing
above its priority. Otherwise the strongest request is acknowledged, and its
handler is not run. -/
theorem stoppedInPlace_iff_masked (next : machine.HaltsNext instruction fetched) :
    let level := machine.psw.priority.toNat
    let after := machine.step.2
    ((machine.step.1 = .ok .halted ∧ StoppedInPlace machine after) ↔
      ∀ line, machine.poll.requests.contains line → line.level ≤ level) ∧
    ∀ line, machine.poll.requests.IsStrongest level line →
      after.requests = machine.poll.requests.erase line ∧
      ∀ answer, machine.step.1 = .ok answer →
        (∃ vector, answer = .trapped vector) ∧ after.step = (.ok .halted, after) := by
  intro level after
  have stopped := next.stoppedInPlace
  constructor
  · constructor
    · rintro ⟨-, inPlace⟩
      apply InterruptRequests.strongestAbove?_eq_none_iff.mp
      cases found : machine.poll.requests.strongestAbove? level with
      | none => rfl
      | some line =>
          have strongest := InterruptRequests.strongestAbove?_eq_some_iff.mp found
          have kept := congrArg (InterruptRequests.contains · line) (next.loses strongest).1
          rw [inPlace.requests] at kept
          simp [strongest.requested] at kept
    · intro masked
      rw [← stopped.requests] at masked
      have level_eq : level = fetched.psw.priority.toNat :=
        congrArg (fun psw : Psw => psw.priority.toNat) stopped.psw.symm
      rw [level_eq] at masked
      have rests := next.step_eq_finish.trans
        (finish_of_halted_of_masked stopped.runState next.fetched_untrapped masked)
      change machine.step.1 = _ ∧ StoppedInPlace machine machine.step.2
      rw [rests]
      exact ⟨rfl, stopped⟩
  · intro line strongest
    exact next.loses strongest

/-- A `HALT` in front of a handler of the line clock, which asks for service. -/
def askedHalt : Machine NoDevices :=
  { ofConfig Config.default .none with
    registers := (RegisterFile.cleared.set .programCounter 0o10).set (.stackPointer .kernel) 0o100
    psw := .ofBits 0
    ram := Ram.zeroed 0o104
    requests := InterruptRequests.none.insert .lineClock }

/-- The clock is acknowledged, and its handler, at 0, will not run. -/
theorem not_stoppedInPlace_askedHalt :
    ¬ StoppedInPlace askedHalt askedHalt.step.2 ∧
      askedHalt.step.2.requests = .none ∧
      askedHalt.step.2.pc = 0 ∧
      askedHalt.step.2.step = (.ok .halted, askedHalt.step.2) := by
  have ready : askedHalt.poll.startInstruction.fetch =
      (.ready { pc := 0o10, word := 0, opcode := .halt, extension := [] },
        askedHalt.poll.startInstruction.fetch.2) := Prod.ext rfl rfl
  rcases stoppedInPlace_iff_masked ⟨rfl, rfl, rfl, ready, rfl, rfl⟩ with ⟨-, lost⟩
  have strongest : askedHalt.poll.requests.IsStrongest 0 .lineClock :=
    InterruptRequests.isStrongest_of_strongestAbove? rfl
  rcases lost .lineClock strongest with ⟨requests, answers⟩
  rcases answers (.trapped 0o100) rfl with ⟨-, still⟩
  constructor
  · intro stopped
    have kept := stopped.requests
    rw [requests] at kept
    contradiction
  · exact ⟨requests, rfl, still⟩

end Machine

end Pdp11
