import Pdp11.Machine.Error
import Pdp11.Microcode.Op

/-!
# The pipeline

The micro-operations of one instruction wait in a queue of fixed capacity.
-/

namespace Pdp11

/-- Micro-operations in the order in which they run, no more
than there is room for. -/
structure Pipeline where
  ops : List MicroOp
  length_le : ops.length ≤ pipelineCapacity
deriving DecidableEq

namespace Pipeline

/-- A pipeline that does nothing. -/
def empty : Pipeline where
  ops := []
  length_le := Nat.zero_le _

/-- How many micro-operations there are. -/
def length (pipeline : Pipeline) : Nat :=
  pipeline.ops.length

/-- Put one more micro-operation behind the others, if there is room. -/
def push (pipeline : Pipeline) (op : MicroOp) : Except MachineError Pipeline :=
  if room : pipeline.ops.length < pipelineCapacity then
    .ok
      { ops := pipeline.ops ++ [op]
        length_le := by
          rw [List.length_append]
          exact room }
  else
    .error (.pipelineOverflow (pipeline.ops.length + 1))

/-- A pipeline of `ops`. Of more than fit, the first that does not is
reported. -/
def ofOps (ops : List MicroOp) : Except MachineError Pipeline :=
  if room : ops.length ≤ pipelineCapacity then
    .ok { ops := ops, length_le := room }
  else
    .error (.pipelineOverflow (pipelineCapacity + 1))

theorem ofOps_eq_ok_iff {ops : List MicroOp} {pipeline : Pipeline} :
    ofOps ops = .ok pipeline ↔ pipeline.ops = ops := by
  constructor
  · intro built
    unfold ofOps at built
    split at built
    · cases built
      rfl
    · contradiction
  · rintro rfl
    simp [ofOps, pipeline.length_le]

/-- Keep the first `length` micro-operations. -/
def truncate (pipeline : Pipeline) (length : Nat) : Pipeline where
  ops := pipeline.ops.take length
  length_le := Nat.le_trans (List.length_take_le' length pipeline.ops) pipeline.length_le

end Pipeline

end Pdp11
