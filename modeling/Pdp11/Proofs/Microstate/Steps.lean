import Pdp11.Proofs.DoubleFaults
import Pdp11.Proofs.Microstate.Execution

/-!
# What no program can tell apart

Scratch registers and the branch predictor keep what earlier instructions left
in them. Two machines that differ in nothing else come to the same result in
every step and make the same calls on the bus, and afterwards they again differ
in nothing else.
-/

namespace Pdp11

universe u

variable {δ : Type u} [Bus δ]

namespace Machine

/-- `second` is `first` but for scratch registers and the branch predictor. -/
structure SameArchitecture (first second : Machine δ) : Prop where
  rest : second = first.withMicrostate second.registers second.predictor
  registers : first.registers.AgreesOutside second.registers

end Machine

/-- Outcomes with one answer, and with machines that programs cannot tell apart. -/
structure Alike {α : Type} (one other : α × Machine δ) : Prop where
  answer : other.1 = one.1
  machine : one.2.SameArchitecture other.2

omit [Bus δ] in
theorem Alike.exists_pairs {α : Type} {one other : α × Machine δ} (alike : Alike one other) :
    ∃ answer first second, one = (answer, first) ∧ other = (answer, second) ∧
      first.SameArchitecture second :=
  ⟨one.1, one.2, other.2, rfl, Prod.ext alike.answer rfl, alike.machine⟩

namespace Machine

variable {first second : Machine δ}

namespace SameArchitecture

omit [Bus δ] in
theorem of_withMicrostate {registers : RegisterFile} (predictor : BranchPredictor)
    (agrees : first.registers.AgreesOutside registers) :
    first.SameArchitecture (first.withMicrostate registers predictor) :=
  ⟨rfl, agrees⟩

omit [Bus δ] in
theorem exists_withMicrostate (same : first.SameArchitecture second) :
    ∃ registers predictor, second = first.withMicrostate registers predictor ∧
      first.registers.AgreesOutside registers :=
  ⟨_, _, same.rest, same.registers⟩

omit [Bus δ] in
theorem psw (same : first.SameArchitecture second) : second.psw = first.psw := by
  rw [same.rest]
  rfl

omit [Bus δ] in
theorem runState (same : first.SameArchitecture second) : second.runState = first.runState := by
  rw [same.rest]
  rfl

omit [Bus δ] in
theorem traceInhibited (same : first.SameArchitecture second) :
    second.traceInhibited = first.traceInhibited := by
  rw [same.rest]
  rfl

omit [Bus δ] in
theorem requests (same : first.SameArchitecture second) : second.requests = first.requests := by
  rw [same.rest]
  rfl

omit [Bus δ] in
theorem pc (same : first.SameArchitecture second) : second.pc = first.pc :=
  same.registers .programCounter rfl

omit [Bus δ] in
/-- What sees neither registers nor predictor may happen to both machines. -/
theorem update (same : first.SameArchitecture second) (change : Machine δ → Machine δ)
    (blind : ∀ machine registers predictor, change (machine.withMicrostate registers predictor) =
      (change machine).withMicrostate registers predictor)
    (kept : (change first).registers = first.registers) :
    (change first).SameArchitecture (change second) := by
  rcases same.exists_withMicrostate with ⟨registers, predictor, rfl, agrees⟩
  rw [blind]
  apply of_withMicrostate
  rw [kept]
  exact agrees

omit [Bus δ] in
theorem raise (same : first.SameArchitecture second) (kind : TrapClass) :
    (first.raise kind).SameArchitecture (second.raise kind) :=
  same.update (Machine.raise · kind) (fun _ _ _ => rfl) rfl

omit [Bus δ] in
theorem withPsw (same : first.SameArchitecture second) (psw : Psw) :
    SameArchitecture { first with psw := psw } { second with psw := psw } :=
  same.update (fun machine => { machine with psw := psw }) (fun _ _ _ => rfl) rfl

omit [Bus δ] in
theorem withRunState (same : first.SameArchitecture second) (runState : RunState) :
    SameArchitecture { first with runState := runState } { second with runState := runState } :=
  same.update (fun machine => { machine with runState := runState }) (fun _ _ _ => rfl) rfl

theorem poll (same : first.SameArchitecture second) : first.poll.SameArchitecture second.poll :=
  same.update Machine.poll (fun _ _ _ => rfl) rfl

omit [Bus δ] in
theorem startInstruction (same : first.SameArchitecture second) :
    first.startInstruction.SameArchitecture second.startInstruction :=
  same.update Machine.startInstruction (fun _ _ _ => rfl) rfl

omit [Bus δ] in
theorem traceAfter (same : first.SameArchitecture second) (traced : Bool) :
    (first.traceAfter traced).SameArchitecture (second.traceAfter traced) := by
  unfold Machine.traceAfter
  rw [same.traceInhibited, same.runState]
  split
  · exact same.raise .trace
  · exact same

omit [Bus δ] in
theorem setCell (same : first.SameArchitecture second) (cell : Cell) (value : Word) :
    SameArchitecture { first with registers := first.registers.set cell value }
      { second with registers := second.registers.set cell value } := by
  constructor
  · rw [same.rest]
    rfl
  · intro other visible
    rw [RegisterFile.get_set, RegisterFile.get_set, same.registers other visible]

omit [Bus δ] in
theorem setPc (same : first.SameArchitecture second) (value : Word) :
    (first.setPc value).SameArchitecture (second.setPc value) :=
  same.setCell .programCounter value

omit [Bus δ] in
theorem setStackPointer (same : first.SameArchitecture second) (mode : Mode) (value : Word) :
    (first.setStackPointer mode value).SameArchitecture (second.setStackPointer mode value) :=
  same.setCell (.stackPointer mode) value

end SameArchitecture

/-! ## Fetches -/

theorem alike_read (same : first.SameArchitecture second) (mode : Mode) (cycle : MemoryCycle)
    (address : Word) (width : Width) :
    Alike (first.read mode cycle address width) (second.read mode cycle address width) := by
  rcases same.exists_withMicrostate with ⟨registers, predictor, rfl, agrees⟩
  rw [read_withMicrostate]
  constructor
  · rfl
  · apply SameArchitecture.of_withMicrostate
    rw [(first.accessed_read mode cycle address width).registers]
    exact agrees

theorem alike_fetchWord (same : first.SameArchitecture second) (cycle : MemoryCycle) :
    Alike (first.fetchWord cycle) (second.fetchWord cycle) := by
  rcases (alike_read same first.psw.mode cycle first.pc .word).exists_pairs with
    ⟨answer, one, other, firstReads, secondReads, read⟩
  simp only [fetchWord, same.psw, same.pc, firstReads, secondReads]
  cases answer with
  | error error => exact ⟨rfl, read⟩
  | ok word => exact ⟨rfl, read.setPc _⟩

theorem alike_fetchExtension (same : first.SameArchitecture second) (instruction : Instruction)
    (count : Nat) :
    Alike (first.fetchExtension instruction count) (second.fetchExtension instruction count) := by
  induction count generalizing first second instruction with
  | zero => exact ⟨rfl, same⟩
  | succ count ih =>
      rcases (alike_fetchWord same .instructionStream).exists_pairs with
        ⟨answer, one, other, firstReads, secondReads, read⟩
      simp only [fetchExtension, firstReads, secondReads]
      cases answer with
      | error error => exact ⟨rfl, read.raise _⟩
      | ok word => exact ih read _

theorem alike_fetch (same : first.SameArchitecture second) : Alike first.fetch second.fetch := by
  rcases (alike_fetchWord same .fetch).exists_pairs with
    ⟨answer, one, other, firstReads, secondReads, read⟩
  simp only [fetch, same.pc, firstReads, secondReads]
  cases answer with
  | error error => exact ⟨rfl, read.raise _⟩
  | ok word =>
      dsimp only
      split
      · exact ⟨rfl, read.raise _⟩
      · exact ⟨rfl, read.raise _⟩
      · exact alike_fetchExtension read _ _

/-! ## Instructions -/

theorem sameArchitecture_execute {pipeline : Pipeline} (supplied : Supplied [] pipeline.ops)
    (same : first.SameArchitecture second) :
    (second.execute pipeline).result = (first.execute pipeline).result ∧
      (first.execute pipeline).machine.SameArchitecture (second.execute pipeline).machine := by
  rcases same.exists_withMicrostate with ⟨registers, predictor, rfl, agrees⟩
  rcases @Datapath.exists_run_withMicrostate δ _ { machine := first, signals := .quiet }
    registers [] pipeline.ops 0 supplied predictor agrees (by simp) with
    ⟨after, learned, runs, kept⟩
  change Datapath.run { machine := first.withMicrostate registers predictor, signals := .quiet } 0
    pipeline.ops = _ at runs
  unfold execute
  rw [runs]
  exact ⟨rfl, .of_withMicrostate learned kept⟩

theorem alike_perform (same : first.SameArchitecture second) (instruction : Instruction) :
    Alike (first.perform instruction) (second.perform instruction) := by
  rcases instruction.exists_encode with ⟨pipeline, encoded, ops⟩
  have supplied : Supplied [] pipeline.ops := ops ▸ instruction.supplied_program
  have executed := (sameArchitecture_execute supplied same).2
  rw [perform_of_encode encoded, perform_of_encode encoded, executed.psw]
  exact ⟨rfl, executed⟩

theorem alike_fetchAndPerform (same : first.SameArchitecture second) :
    Alike first.fetchAndPerform second.fetchAndPerform := by
  rcases (alike_fetch same).exists_pairs with
    ⟨answer, one, other, firstFetches, secondFetches, fetched⟩
  rw [fetchAndPerform, fetchAndPerform, firstFetches, secondFetches]
  cases answer with
  | ready instruction => exact alike_perform fetched instruction
  | deferred kind => exact ⟨rfl, fetched⟩
  | aborted error => exact ⟨rfl, fetched⟩

/-! ## Service -/

omit [Bus δ] in
/-- Both machines choose the same exception, if they choose one. -/
theorem acknowledge?_of_sameArchitecture (same : first.SameArchitecture second) :
    (first.acknowledge? = none ∧ second.acknowledge? = none) ∨
    ∃ vector retriable one other,
      first.acknowledge? = some { vector := vector, retriable := retriable, machine := one } ∧
      second.acknowledge? = some { vector := vector, retriable := retriable, machine := other } ∧
      one.SameArchitecture other := by
  rcases same.exists_withMicrostate with ⟨registers, predictor, rfl, agrees⟩
  have traps : (first.withMicrostate registers predictor).traps = first.traps := rfl
  unfold acknowledge? acknowledgeTrap? acknowledgeInterrupt?
  rw [traps, same.requests, same.psw]
  cases first.traps.takeFirst? with
  | some taken =>
      right
      rcases taken with ⟨kind, rest⟩
      dsimp only [Option.map_some]
      generalize (if kind = .trace then rest else rest.erase .trace) = remaining
      by_cases overflow : kind = .stackOverflow ∧ remaining.redZone
      · rw [if_pos overflow, if_pos overflow]
        have begun : SameArchitecture { first with traps := { remaining with redZone := false } }
            { first.withMicrostate registers predictor with
              traps := { remaining with redZone := false } } := .of_withMicrostate predictor agrees
        exact ⟨_, _, _, _, rfl, rfl, begun.setStackPointer .kernel emergencyStack⟩
      · rw [if_neg overflow, if_neg overflow]
        exact ⟨_, _, _, _, rfl, rfl, .of_withMicrostate predictor agrees⟩
  | none =>
      cases first.requests.strongestAbove? first.psw.priority.toNat with
      | some line => exact .inr ⟨_, _, _, _, rfl, rfl, .of_withMicrostate predictor agrees⟩
      | none => exact .inl ⟨rfl, rfl⟩

theorem alike_tryEntry (same : first.SameArchitecture second) (vector : Word) :
    Alike (first.tryEntry vector) (second.tryEntry vector) := by
  unfold tryEntry
  cases built : Pipeline.ofOps (entryProgram vector) with
  | error error => exact ⟨rfl, same⟩
  | ok pipeline =>
      have ops : pipeline.ops = entryProgram vector := Pipeline.ofOps_eq_ok_iff.mp built
      have supplied : Supplied [] pipeline.ops := ops ▸ supplied_entryProgram vector
      have executed := sameArchitecture_execute supplied same
      dsimp only
      generalize first.execute pipeline = one at executed ⊢
      generalize second.execute pipeline = other at executed ⊢
      rcases one with ⟨result, _, after⟩
      rcases other with ⟨_, _, otherAfter⟩
      rcases executed with ⟨⟨⟩, after⟩
      rcases result with error | ending
      · exact ⟨rfl, after⟩
      · cases ending with
        | completed => exact ⟨rfl, after⟩
        | transferred index => exact ⟨rfl, after⟩
        | trapped index kind =>
            rcases after.exists_withMicrostate with ⟨registers, predictor, rfl, agrees⟩
            exact ⟨rfl, .of_withMicrostate predictor agrees⟩

omit [Bus δ] in
theorem alike_doubleFault (same : first.SameArchitecture second) (vector : Word) :
    Alike (first.doubleFault vector) (second.doubleFault vector) :=
  ⟨rfl, same.withRunState _⟩

theorem alike_enter (same : first.SameArchitecture second) (vector : Word) (retriable : Bool) :
    Alike (enter { vector := vector, retriable := retriable, machine := first })
      (enter { vector := vector, retriable := retriable, machine := second }) := by
  rcases (alike_tryEntry same vector).exists_pairs with
    ⟨answer, one, other, firstTries, secondTries, met⟩
  simp only [enter, same.psw, same.pc, firstTries, secondTries]
  rcases answer with error | _ | kind
  · exact ⟨rfl, met⟩
  · exact ⟨rfl, met⟩
  · cases retriable with
    | false => exact alike_doubleFault met vector
    | true =>
        have restored := ((met.withPsw first.psw).setPc first.pc).setStackPointer .kernel
          emergencyStack
        rcases (alike_tryEntry restored emergencyVector).exists_pairs with
          ⟨answer, again, otherAgain, firstRetries, secondRetries, met⟩
        simp only [if_true, firstRetries, secondRetries]
        rcases answer with error | _ | kind
        · exact ⟨rfl, met⟩
        · exact ⟨rfl, met⟩
        · exact alike_doubleFault met vector

theorem alike_service (same : first.SameArchitecture second) :
    Alike first.service second.service := by
  unfold service
  rcases acknowledge?_of_sameArchitecture same with
    ⟨nothing, also⟩ | ⟨vector, retriable, one, other, chosen, also, begun⟩
  · rw [nothing, also]
    exact ⟨rfl, same⟩
  · have entered := alike_enter begun vector retriable
    rw [chosen, also]
    exact ⟨congrArg (Except.map some) entered.answer, entered.machine⟩

theorem alike_finish (same : first.SameArchitecture second) :
    Alike first.finish second.finish := by
  rcases (alike_service same).exists_pairs with
    ⟨answer, one, other, firstServes, secondServes, served⟩
  rw [finish, finish, firstServes, secondServes]
  rcases answer with error | _ | vector
  · exact ⟨rfl, served.withRunState _⟩
  · dsimp only [restingResult]
    rw [served.runState]
    exact ⟨rfl, served⟩
  · exact ⟨rfl, served⟩

/-! ## Steps -/

theorem alike_cycle (same : first.SameArchitecture second) : Alike first.cycle second.cycle := by
  have begun := same.poll.startInstruction
  rcases (alike_fetchAndPerform begun).exists_pairs with
    ⟨answer, one, other, firstPerforms, secondPerforms, performed⟩
  simp only [cycle, begun.psw, firstPerforms, secondPerforms]
  cases answer with
  | error error => exact ⟨rfl, performed.withRunState _⟩
  | ok resumed => exact alike_finish (performed.traceAfter _)

theorem alike_await (same : first.SameArchitecture second) : Alike first.await second.await := by
  have polled := same.poll
  simp only [await, polled.requests, polled.psw]
  split
  · exact alike_finish polled
  · exact ⟨rfl, polled⟩

theorem alike_step (same : first.SameArchitecture second) : Alike first.step second.step := by
  unfold step
  rw [same.runState]
  split
  · exact ⟨rfl, same⟩
  · exact ⟨rfl, same⟩
  · exact alike_await same
  · exact alike_cycle same

/-! ## Many steps -/

theorem SameArchitecture.afterSteps (same : first.SameArchitecture second) (count : Nat) :
    (first.afterSteps count).SameArchitecture (second.afterSteps count) := by
  induction count with
  | zero => exact same
  | succ count ih => exact (alike_step ih).machine

theorem alike_runFrom (same : first.SameArchitecture second) (summary : RunSummary)
    (remaining : Nat) :
    Alike (first.runFrom summary remaining) (second.runFrom summary remaining) := by
  induction remaining generalizing first second summary with
  | zero => exact ⟨rfl, same⟩
  | succ remaining ih =>
      rcases (alike_step same).exists_pairs with
        ⟨answer, one, other, firstSteps, secondSteps, after⟩
      rw [runFrom, runFrom, firstSteps, secondSteps]
      cases answer with
      | error error => exact ⟨rfl, after⟩
      | ok final =>
          dsimp only
          split
          · exact ⟨rfl, after⟩
          · exact ih after _

omit [Bus δ] in
/-- The calls on the bus are part of what two machines agree on. -/
theorem SameArchitecture.calls {first second : Machine (Recorded δ)}
    (same : first.SameArchitecture second) : second.devices.calls = first.devices.calls := by
  rw [same.rest]
  rfl

/-- Machines that differ in scratch registers and in the predictor alone take the
same steps, each with the same result and the same calls on the bus, and differ
in nothing else after any of them. So do whole runs. -/
theorem microstate_invisible {first second : Machine (Recorded δ)}
    (same : first.SameArchitecture second) :
    (∀ count,
      let one := (first.afterSteps count).step
      let other := (second.afterSteps count).step
      other.1 = one.1 ∧ other.2.devices.calls = one.2.devices.calls ∧
        one.2.SameArchitecture other.2) ∧
    ∀ limit,
      let one := first.run limit
      let other := second.run limit
      other.1 = one.1 ∧ other.2.devices.calls = one.2.devices.calls ∧
        one.2.SameArchitecture other.2 := by
  constructor
  · intro count one other
    have stepped : Alike one other := alike_step (same.afterSteps count)
    exact ⟨stepped.answer, stepped.machine.calls, stepped.machine⟩
  · intro limit one other
    have ran : Alike one other := alike_runFrom same _ limit
    exact ⟨ran.answer, ran.machine.calls, ran.machine⟩

/-- A `BPL` that is taken, to itself. -/
def branching : Machine (Recorded NoDevices) :=
  { ofConfig { Config.default with memoryBytes := 2 } { devices := .none, calls := #[] } with
    ram := { bytes := #[0o377, 0o200] } }

/-- The same with something in `t0` and a branch learned at the same address. -/
def branchingAgain : Machine (Recorded NoDevices) :=
  branching.withMicrostate (branching.registers.set (.scratch 6) 0o123456)
    (branching.predictor.learn true 0 0)

/-- The predictor was right about one of them only, and no run tells. -/
theorem branching_branchingAgain :
    branching.SameArchitecture branchingAgain ∧
      branchingAgain.step.2.predictor.hits = 1 ∧ branching.step.2.predictor.hits = 0 ∧
      branchingAgain.step.1 = branching.step.1 ∧
      (branchingAgain.run 5).1 = (branching.run 5).1 := by
  have same : branching.SameArchitecture branchingAgain := by
    apply SameArchitecture.of_withMicrostate
    intro cell visible
    rw [RegisterFile.get_set, if_neg]
    rintro rfl
    contradiction
  rcases microstate_invisible same with ⟨steps, runs⟩
  exact ⟨same, rfl, rfl, (steps 0).1, (runs 5).1⟩

end Machine

end Pdp11
