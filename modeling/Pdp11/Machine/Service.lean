import Pdp11.Machine.Execution
import Pdp11.Microcode.Program

/-!
# Service of traps and interrupts

Between instructions the machine serves one exception: the first pending trap,
or else the highest interrupt request above the priority of the processor. A
handler that cannot be entered is replaced once by the one at the emergency
vector, on the emergency stack; if that fails too, or may not be tried, the
machine stops.
-/

namespace Pdp11

universe u

/-- Vector of the handler that takes over from one that cannot be entered. -/
def emergencyVector : Word := 0o4

/-- Kernel stack pointer for the emergency vector and for red zone traps. -/
def emergencyStack : Word := 0o4

/-- An exception chosen for service. -/
structure Acknowledged (δ : Type u) where
  vector : Word
  /-- The emergency vector may take over. -/
  retriable : Bool
  machine : Machine δ

namespace Machine

variable {δ : Type u}

/-- Choose a pending trap. Any trap but the trace trap also drops a pending
trace trap, since the new status word says whether tracing goes on. -/
def acknowledgeTrap? (machine : Machine δ) : Option (Acknowledged δ) :=
  machine.traps.takeFirst?.map fun (kind, traps) =>
    let traps := if kind = .trace then traps else traps.erase .trace
    if kind = .stackOverflow ∧ traps.redZone then
      { vector := kind.vector
        retriable := false
        machine :=
          { machine with traps := { traps with redZone := false } }.setStackPointer
            .kernel emergencyStack }
    else
      { vector := kind.vector
        retriable := !kind.isAbort
        machine := { machine with traps := traps } }

/-- Choose an interrupt request, drop it and end a wait. -/
def acknowledgeInterrupt? (machine : Machine δ) : Option (Acknowledged δ) :=
  (machine.requests.strongestAbove? machine.psw.priority.toNat).map fun line =>
    { vector := line.vector
      retriable := true
      machine :=
        { machine with
          requests := machine.requests.erase line
          runState := if machine.runState = .waiting then .running else machine.runState } }

/-- Choose what to serve: a pending trap goes before every interrupt. -/
def acknowledge? (machine : Machine δ) : Option (Acknowledged δ) :=
  machine.acknowledgeTrap? <|> machine.acknowledgeInterrupt?

variable [Bus δ]

/-- The outcome of one try to enter the handler at `vector`: an internal error,
the trap that the try met, or nothing. -/
def tryEntry (machine : Machine δ) (vector : Word) :
    Except MachineError (Option TrapClass) × Machine δ :=
  match Pipeline.ofOps (entryProgram vector) with
  | .error error => (.error error, machine)
  | .ok pipeline =>
    match machine.execute pipeline with
    | { result := .error error, machine, .. } => (.error error, machine)
    | { result := .ok (.trapped _ kind), machine, .. } =>
      (.ok (some kind), { machine with traps := machine.traps.erase kind })
    | { result := .ok _, machine, .. } => (.ok none, machine)

/-- Stop for good because the handler at `vector` could not be entered. -/
def doubleFault (machine : Machine δ) (vector : Word) :
    Except MachineError Word × Machine δ :=
  let error := MachineError.doubleFault vector
  (.error error, { machine with runState := .fatal error })

/-- Enter the handler of an exception; the answer is the vector it was entered
through. -/
def enter (acknowledged : Acknowledged δ) : Except MachineError Word × Machine δ :=
  let { vector, retriable, machine := interrupted } := acknowledged
  match interrupted.tryEntry vector with
  | (.error error, machine) => (.error error, machine)
  | (.ok none, machine) => (.ok vector, machine)
  | (.ok (some _), machine) =>
    if retriable then
      let restored := { machine with psw := interrupted.psw }.setPc interrupted.pc
      match (restored.setStackPointer .kernel emergencyStack).tryEntry emergencyVector with
      | (.error error, machine) => (.error error, machine)
      | (.ok none, machine) => (.ok emergencyVector, machine)
      | (.ok (some _), machine) => machine.doubleFault vector
    else
      machine.doubleFault vector

/-- Serve one exception, if there is one to serve. -/
def service (machine : Machine δ) : Except MachineError (Option Word) × Machine δ :=
  match machine.acknowledge? with
  | none => (.ok none, machine)
  | some acknowledged =>
    let (result, machine) := enter acknowledged
    (result.map some, machine)

end Machine

end Pdp11
