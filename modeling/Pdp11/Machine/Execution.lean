import Pdp11.Machine.Effect
import Pdp11.Microcode.Pipeline

/-!
# Execution of micro-operations

Micro-operations run one after another until one of them ends the instruction.
What has been done by then stays done, and the micro-operations after it are
dropped from the pipeline.
-/

namespace Pdp11

universe u

/-- How a pipeline came to its end. -/
inductive Ending
  | completed
  /-- The micro-operation at `index` transferred control. -/
  | transferred (index : Nat)
  /-- The micro-operation at `index` raised a trap. -/
  | trapped (index : Nat) (kind : TrapClass)
deriving DecidableEq

namespace Effect

variable {δ : Type u}

/-- Carry out the posted register writes, no more of them than are allowed. -/
def commit (effect : Effect δ) : Datapath δ :=
  let machine := effect.datapath.machine
  let registers := (effect.writes.take maxWrites).foldl
    (fun registers (cell, value) => registers.set cell value) machine.registers
  { effect.datapath with machine := { machine with registers := registers } }

/-- More writes are posted than are allowed. -/
def conflicts (effect : Effect δ) : Bool :=
  effect.writes.length > maxWrites

end Effect

namespace Datapath

variable {δ : Type u} [Bus δ]

/-- Run `ops`, the first of which stands at `index`. -/
def run (datapath : Datapath δ) (index : Nat) :
    List MicroOp → Except MachineError Ending × Machine δ
  | [] => (.ok .completed, datapath.machine)
  | op :: rest =>
    let effect := op.effect datapath
    let datapath := effect.commit
    if effect.conflicts then
      (.error (.excessWrites index), datapath.machine)
    else
      match effect.disposition with
      | .next => datapath.run (index + 1) rest
      | .flush => (.ok (.transferred index), datapath.machine)
      | .raise kind => (.ok (.trapped index kind), datapath.machine.raise kind)

end Datapath

/-- What carrying out a pipeline comes to. -/
structure Execution (δ : Type u) where
  result : Except MachineError Ending
  /-- The micro-operations that ran. -/
  pipeline : Pipeline
  machine : Machine δ

namespace Pipeline

/-- What is left of a pipeline that ended with `result`. -/
def flushed (pipeline : Pipeline) : Except MachineError Ending → Pipeline
  | .ok (.transferred index) | .ok (.trapped index _) => pipeline.truncate (index + 1)
  | .ok .completed | .error _ => pipeline

end Pipeline

namespace Machine

variable {δ : Type u} [Bus δ]

/-- Run the micro-operations in `pipeline`, from quiet signals. -/
def execute (machine : Machine δ) (pipeline : Pipeline) : Execution δ :=
  let (result, machine) := Datapath.run { machine := machine, signals := .quiet } 0 pipeline.ops
  { result := result
    pipeline := pipeline.flushed result
    machine := machine }

end Machine

end Pdp11
