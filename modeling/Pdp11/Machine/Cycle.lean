import Pdp11.Machine.Fetch
import Pdp11.Machine.Service

/-!
# The instruction cycle

A step fetches an instruction, carries it out and serves one exception. A
machine that has halted, or stopped for good, no longer changes; one that
waits does nothing but poll its devices.
-/

namespace Pdp11

universe u

/-- What a step came to. -/
inductive StepResult
  /-- An instruction was carried out and no handler entered. -/
  | retired
  /-- A handler was entered through `vector`. -/
  | trapped (vector : Word)
  | waiting
  | halted
deriving DecidableEq

namespace StepResult

/-- A run goes no further. -/
def endsRun : StepResult → Bool
  | waiting | halted => true
  | retired | trapped _ => false

end StepResult

/-- How many steps a run took, and what the last of them came to. -/
structure RunSummary where
  steps : Nat
  final : StepResult
deriving DecidableEq

namespace Machine

variable {δ : Type u}

/-- Stop for good with `error`. -/
def latch (machine : Machine δ) (error : MachineError) :
    Except MachineError StepResult × Machine δ :=
  (.error error, { machine with runState := .fatal error })

/-- Get ready for an instruction. -/
def startInstruction (machine : Machine δ) : Machine δ :=
  { machine with
    pswWritten := false
    traceInhibited := false
    mmu := machine.mmu.startInstruction }

/-- Raise the trace trap after an instruction that was traced, unless it
halted the machine or put the trap off. -/
def traceAfter (machine : Machine δ) (traced : Bool) : Machine δ :=
  if traced ∧ !machine.traceInhibited ∧ machine.runState ≠ .halted then
    machine.raise .trace
  else
    machine

/-- The result of a step that entered no handler. -/
def restingResult (machine : Machine δ) : StepResult :=
  match machine.runState with
  | .halted => .halted
  | .waiting => .waiting
  | .running | .fatal _ => .retired

variable [Bus δ]

/-- Let the devices raise and drop interrupt requests. -/
def poll (machine : Machine δ) : Machine δ :=
  let (requests, devices) := Bus.poll machine.devices machine.requests
  { machine with
    requests := requests
    devices := devices }

/-- Serve an exception at the end of a step. -/
def finish (machine : Machine δ) : Except MachineError StepResult × Machine δ :=
  match machine.service with
  | (.error error, machine) => machine.latch error
  | (.ok (some vector), machine) => (.ok (.trapped vector), machine)
  | (.ok none, machine) => (.ok machine.restingResult, machine)

/-- Carry out `instruction`; the answer tells whether it calls for a trace trap
at once. -/
def perform (machine : Machine δ) (instruction : Instruction) :
    Except MachineError Bool × Machine δ :=
  match instruction.encode with
  | .error error => (.error error, machine)
  | .ok pipeline =>
    match machine.execute pipeline with
    | { result := .error error, machine, .. } => (.error error, machine)
    | { result := .ok _, machine, .. } =>
      (.ok (instruction.opcode = .rti && machine.psw.trace), machine)

/-- Fetch an instruction and carry it out. -/
def fetchAndPerform (machine : Machine δ) : Except MachineError Bool × Machine δ :=
  match machine.fetch with
  | (.ready instruction, machine) => machine.perform instruction
  | (.deferred _, machine) | (.aborted _, machine) => (.ok false, machine)

/-- One step of a running machine. -/
def cycle (machine : Machine δ) : Except MachineError StepResult × Machine δ :=
  let begun := machine.poll.startInstruction
  match begun.fetchAndPerform with
  | (.error error, machine) => machine.latch error
  | (.ok resumed, machine) => (machine.traceAfter (begun.psw.trace || resumed)).finish

/-- One step of a waiting machine. -/
def await (machine : Machine δ) : Except MachineError StepResult × Machine δ :=
  let polled := machine.poll
  if (polled.requests.strongestAbove? polled.psw.priority.toNat).isSome then
    polled.finish
  else
    (.ok .waiting, polled)

/-- One step, which does nothing once the machine has stopped. -/
def step (machine : Machine δ) : Except MachineError StepResult × Machine δ :=
  match machine.runState with
  | .fatal error => (.error error, machine)
  | .halted => (.ok .halted, machine)
  | .waiting => machine.await
  | .running => machine.cycle

/-- The machine after so many steps, whatever comes of them. -/
def afterSteps (machine : Machine δ) : Nat → Machine δ
  | 0 => machine
  | count + 1 => (machine.afterSteps count).step.2

/-- Go on after the steps in `summary`, for at most `remaining` more. -/
def runFrom (machine : Machine δ) (summary : RunSummary) :
    Nat → Except MachineError RunSummary × Machine δ
  | 0 => (.ok summary, machine)
  | remaining + 1 =>
    match machine.step with
    | (.error error, machine) => (.error error, machine)
    | (.ok final, machine) =>
      let summary := { steps := summary.steps + 1, final := final }
      if final.endsRun then
        (.ok summary, machine)
      else
        machine.runFrom summary remaining

/-- Step until the machine halts or waits, for at most `limit` steps. -/
def run (machine : Machine δ) (limit : Nat) : Except MachineError RunSummary × Machine δ :=
  machine.runFrom { steps := 0, final := .retired } limit

end Machine

end Pdp11
