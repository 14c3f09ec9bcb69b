import Pdp11.Machine.Cycle
import Pdp11.Proofs.ExceptionChoice
import Pdp11.Proofs.Fetch
import Pdp11.Proofs.ProgramLength

/-!
# Steps that fail

Every program fits the pipeline, and no micro-operation posts too many writes.
So the only way for a step to fail is that no handler can be entered, and a
machine that failed stays as it is for good.
-/

namespace Pdp11

universe u

variable {δ : Type u}

namespace Machine

/-- The machine has not stopped for good. -/
def Alive (machine : Machine δ) : Prop :=
  machine.runState.error? = none

variable {machine after : Machine δ}

theorem Alive.of_runState (alive : machine.Alive) (same : after.runState = machine.runState) :
    after.Alive := by
  unfold Alive
  rw [same]
  exact alive

theorem alive_acknowledge? {acknowledged : Acknowledged δ} (alive : machine.Alive)
    (chosen : machine.acknowledge? = some acknowledged) : acknowledged.machine.Alive := by
  cases first : machine.traps.first? with
  | some kind =>
      rcases acknowledge?_of_first? first with ⟨_, isChosen, -, -, control⟩
      cases isChosen.symm.trans chosen
      exact alive.of_runState control.runState
  | none =>
      cases strongest : machine.requests.strongestAbove? machine.psw.priority.toNat with
      | some line =>
          rcases acknowledge?_of_strongestAbove? first strongest with
            ⟨_, isChosen, -, -, -, runState⟩
          cases isChosen.symm.trans chosen
          unfold Alive
          rw [runState]
          split
          · rfl
          · exact alive
      | none =>
          rw [acknowledge?_eq_none_iff.mpr ⟨first, strongest⟩] at chosen
          contradiction

end Machine

variable [Bus δ]

/-! ## Instructions -/

namespace Datapath

theorem alive_effect {datapath : Datapath δ} (alive : datapath.machine.Alive) (op : MicroOp) :
    (op.effect datapath).datapath.machine.Alive := by
  cases controls : op.controls with
  | false => exact alive.of_runState (MicroOp.sameControl_effect controls datapath).runState
  | true =>
      cases op
      case halt | wait =>
        simp only [MicroOp.effect]
        split
        · rfl
        · exact alive
      case reset =>
        simp only [MicroOp.effect]
        split
        · exact alive
        · exact alive
      all_goals contradiction

theorem alive_run {datapath : Datapath δ} (alive : datapath.machine.Alive) (index : Nat)
    (ops : List MicroOp) : (datapath.run index ops).2.Alive := by
  apply run_preserves Machine.Alive
  · intro op _ reached lives
    exact alive_effect lives op
  · intro op _ reached kind _ machine lives
    exact lives
  · exact alive

end Datapath

/-- How a machine that was alive can come out of its work: alive and with an
answer, or stopped by a handler that could not be entered. -/
inductive Outlives {α : Type} : Except MachineError α × Machine δ → Prop
  | answers {answer : α} {after : Machine δ} (alive : after.Alive) : Outlives (.ok answer, after)
  | stops {vector : Word} {after : Machine δ}
      (stopped : after.runState = .fatal (.doubleFault vector)) :
      Outlives (.error (.doubleFault vector), after)

namespace Machine

variable {machine : Machine δ}

/-- An instruction calls for a trace trap at once if it is a return that leaves
the processor traced. -/
theorem perform_of_encode {instruction : Instruction} {pipeline : Pipeline}
    (encoded : instruction.encode = .ok pipeline) :
    machine.perform instruction =
      (.ok (instruction.opcode = .rti && (machine.execute pipeline).machine.psw.trace),
        (machine.execute pipeline).machine) := by
  rcases Datapath.exists_ending { machine := machine, signals := .quiet } 0 pipeline.ops with
    ⟨ending, ends⟩
  have executed : (machine.execute pipeline).result = .ok ending := ends
  unfold perform
  rw [encoded]
  dsimp only
  generalize machine.execute pipeline = execution at executed ⊢
  rcases execution with ⟨result, flushed, after⟩
  cases executed
  rfl

theorem exists_perform (alive : machine.Alive) (instruction : Instruction) :
    ∃ resumed after, machine.perform instruction = (.ok resumed, after) ∧ after.Alive := by
  rcases instruction.exists_encode with ⟨pipeline, encoded, -⟩
  have lives : (machine.execute pipeline).machine.Alive := Datapath.alive_run alive 0 pipeline.ops
  exact ⟨_, _, perform_of_encode encoded, lives⟩

theorem exists_fetchAndPerform (alive : machine.Alive) :
    ∃ resumed after, machine.fetchAndPerform = (.ok resumed, after) ∧ after.Alive := by
  have fetched := machine.fetchedFrom_fetch
  unfold fetchAndPerform
  split <;> rename_i outcome <;> rw [outcome] at fetched
  · exact exists_perform (alive.of_runState fetched.runState) _
  · exact ⟨_, _, rfl, alive.of_runState fetched.runState⟩
  · exact ⟨_, _, rfl, alive.of_runState fetched.runState⟩

/-! ## Service -/

theorem outlives_service (alive : machine.Alive) : Outlives machine.service := by
  cases chosen : machine.acknowledge? with
  | none =>
      rw [service, chosen]
      exact .answers alive
  | some acknowledged =>
      have first := (alive_acknowledge? alive chosen).of_runState
        (sameControl_entry acknowledged.machine acknowledged.vector).runState
      cases outcome :
          (acknowledged.machine.execute (entryPipeline acknowledged.vector)).trap? with
      | none =>
          rw [service_of_entered chosen outcome]
          exact .answers first
      | some kind =>
          rcases service_of_failed chosen outcome with ⟨retried, stopped⟩
          by_cases enters : machine.MayRetry ∧
              (((acknowledged.machine.execute
                (entryPipeline acknowledged.vector)).machine.retrying machine kind).execute
                  (entryPipeline emergencyVector)).trap? = none
          · rw [retried enters.1 enters.2]
            exact .answers (first.of_runState (sameControl_entry _ _).runState)
          · rcases stopped (Classical.not_and_iff_not_or_not.mp enters) with ⟨fails, fatal⟩
            rw [show machine.service = (_, _) from Prod.ext fails rfl]
            exact .stops fatal

theorem outlives_finish (alive : machine.Alive) : Outlives machine.finish := by
  have served := outlives_service alive
  unfold finish
  split <;> rename_i outcome <;> rw [outcome] at served <;> cases served
  · exact .stops rfl
  · exact .answers ‹_›
  · exact .answers ‹_›

/-! ## Steps -/

omit [Bus δ] in
theorem alive_traceAfter (alive : machine.Alive) (traced : Bool) :
    (machine.traceAfter traced).Alive := by
  unfold traceAfter
  split <;> exact alive

theorem step_of_fatal {error : MachineError} (fatal : machine.runState = .fatal error) :
    machine.step = (.error error, machine) := by
  rw [step, fatal]

/-- If the machine has stopped for good, then by a double fault. -/
def StopsByDoubleFault (machine : Machine δ) : Prop :=
  ∀ error, machine.runState = .fatal error → ∃ vector, error = .doubleFault vector

omit [Bus δ] in
theorem Alive.stopsByDoubleFault (alive : machine.Alive) : machine.StopsByDoubleFault := by
  intro error fatal
  rw [Alive, fatal] at alive
  contradiction

theorem outlives_step (stops : machine.StopsByDoubleFault) : Outlives machine.step := by
  cases runState : machine.runState with
  | fatal error =>
      rcases stops error runState with ⟨vector, rfl⟩
      rw [step_of_fatal runState]
      exact .stops runState
  | halted =>
      rw [step, runState]
      exact .answers (congrArg RunState.error? runState)
  | waiting =>
      have alive : machine.poll.Alive := congrArg RunState.error? runState
      simp only [step, runState, await]
      split
      · exact outlives_finish alive
      · exact .answers alive
  | running =>
      have alive : machine.poll.startInstruction.Alive := congrArg RunState.error? runState
      rcases exists_fetchAndPerform alive with ⟨resumed, after, performed, lives⟩
      simp only [step, runState, cycle, performed]
      exact outlives_finish (alive_traceAfter lives _)

end Machine

namespace Outlives

variable {α : Type} {outcome : Except MachineError α × Machine δ}

omit [Bus δ] in
theorem error_iff (outlives : Outlives outcome) (error : MachineError) :
    outcome.1 = .error error ↔ outcome.2.runState = .fatal error := by
  cases outlives with
  | answers alive =>
      constructor
      · intro fails
        contradiction
      · intro fatal
        rw [Machine.Alive, fatal] at alive
        contradiction
  | stops stopped =>
      dsimp only
      rw [stopped]
      constructor
      · rintro ⟨⟩
        rfl
      · rintro ⟨⟩
        rfl

omit [Bus δ] in
theorem stopsByDoubleFault (outlives : Outlives outcome) : outcome.2.StopsByDoubleFault := by
  intro error fatal
  cases outlives with
  | answers alive =>
      rw [Machine.Alive, fatal] at alive
      contradiction
  | stops stopped =>
      cases stopped.symm.trans fatal
      exact ⟨_, rfl⟩

end Outlives

/-! ## Runs -/

namespace Machine

variable {machine : Machine δ}

theorem stopsByDoubleFault_afterSteps (stops : machine.StopsByDoubleFault) (count : Nat) :
    (machine.afterSteps count).StopsByDoubleFault := by
  induction count with
  | zero => exact stops
  | succ count ih => exact (outlives_step ih).stopsByDoubleFault

theorem afterSteps_of_fatal {count later : Nat} {error : MachineError}
    (fatal : (machine.afterSteps count).runState = .fatal error) (reached : count ≤ later) :
    machine.afterSteps later = machine.afterSteps count := by
  induction reached with
  | refl => rfl
  | step _ ih => rw [afterSteps, ih, step_of_fatal fatal]

/-- A step of a run fails exactly when it stops the machine for good, and only by
a double fault. From then on every step fails in the same way and changes
nothing, not even the record of the calls on the bus. -/
theorem step_fails_iff_fatal {machine : Machine (Recorded δ)} (alive : machine.Alive)
    (count : Nat) (error : MachineError) :
    let outcome := (machine.afterSteps count).step
    (outcome.1 = .error error ↔ outcome.2.runState = .fatal error) ∧
    (outcome.1 = .error error →
      (∃ vector, error = .doubleFault vector) ∧
      ∀ later, count < later →
        (machine.afterSteps later).step = (.error error, machine.afterSteps later) ∧
        machine.afterSteps later = outcome.2) := by
  intro outcome
  have outlives : Outlives outcome :=
    outlives_step (stopsByDoubleFault_afterSteps alive.stopsByDoubleFault count)
  constructor
  · exact outlives.error_iff error
  · intro fails
    have fatal : (machine.afterSteps (count + 1)).runState = .fatal error :=
      (outlives.error_iff error).mp fails
    constructor
    · exact outlives.stopsByDoubleFault error fatal
    · intro later behind
      have stays : machine.afterSteps later = outcome.2 :=
        afterSteps_of_fatal fatal behind
      constructor
      · rw [stays]
        exact step_of_fatal fatal
      · exact stays

/-- A program at an odd address, with an odd kernel stack pointer. -/
def oddEverywhere : Machine (Recorded NoDevices) :=
  { ofConfig { Config.default with memoryBytes := 8 } { devices := .none, calls := #[] } with
    registers := (RegisterFile.cleared.set .programCounter 1).set (.stackPointer .kernel) 1 }

/-- The handler of the odd address cannot push its frame, and for an abort there
is no second try. The machine polls its devices once and never again. -/
theorem oddEverywhere_fails :
    oddEverywhere.Alive ∧
      oddEverywhere.step.1 = .error (.doubleFault 4) ∧
      (oddEverywhere.afterSteps 3).step =
        (.error (.doubleFault 4), oddEverywhere.afterSteps 3) ∧
      (oddEverywhere.afterSteps 3).devices.calls = #[.poll] := by
  have alive : oddEverywhere.Alive := rfl
  have fails : oddEverywhere.step.1 = .error (.doubleFault 4) := rfl
  rcases step_fails_iff_fatal alive 0 (.doubleFault 4) with ⟨-, latches⟩
  rcases latches fails with ⟨-, stays⟩
  rcases stays 3 (by decide) with ⟨again, same⟩
  refine ⟨alive, fails, again, ?_⟩
  rw [same]
  rfl

end Machine

end Pdp11
