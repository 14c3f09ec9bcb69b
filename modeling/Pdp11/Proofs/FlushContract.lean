import Pdp11.Proofs.Execution

/-!
# The flush contract of an execution

Micro-operations run in order until one of them ends the instruction. An
execution keeps those that ran and drops the others, so what came after the last
one that ran can have no part in how it ended: not in its result, not in the
machine and not in the calls to the devices, which the machine has recorded.
-/

namespace Pdp11

universe u

variable {δ : Type u} [Bus δ]

theorem Datapath.Steps.take {datapath last : Datapath δ} {ops : List MicroOp}
    (steps : Steps datapath ops last) (length : Nat) :
    ∃ middle, Steps datapath (ops.take length) middle := by
  rw [← List.take_append_drop length ops, append_iff] at steps
  rcases steps with ⟨middle, head, -⟩
  exact ⟨middle, head⟩

theorem Pipeline.eq_of_ops {first second : Pipeline} (same : first.ops = second.ops) :
    first = second := by
  cases first
  cases second
  cases same
  rfl

namespace Machine

variable {machine : Machine δ} {pipeline : Pipeline} {index : Nat}

/-- Execution goes as far as the micro-operation at `index`, with which the
instruction comes to `disposition`. -/
structure StopsAt (machine : Machine δ) (pipeline : Pipeline) (index : Nat)
    (disposition : Disposition) : Prop where
  ended : ∃ op middle, pipeline.ops[index]? = some op ∧
    Datapath.Steps { machine := machine, signals := .quiet } (pipeline.ops.take index) middle ∧
    (op.effect middle).disposition = disposition ∧ disposition ≠ .next
  /-- No micro-operation ended the run before. -/
  notBefore : ∀ length ≤ index,
    (machine.execute (pipeline.truncate length)).result = .ok .completed
  flushed : (machine.execute pipeline).pipeline.ops = pipeline.ops.take (index + 1)
  /-- Nothing depends on what was dropped. -/
  alike : ∀ other : Pipeline, other.ops.take (index + 1) = pipeline.ops.take (index + 1) →
    machine.execute other = machine.execute pipeline

/-- Execution runs every micro-operation, in order, and drops none. -/
structure RunsThrough (machine : Machine δ) (pipeline : Pipeline) : Prop where
  ran : ∃ last, Datapath.Steps { machine := machine, signals := .quiet } pipeline.ops last ∧
    last.machine = (machine.execute pipeline).machine
  kept : (machine.execute pipeline).pipeline = pipeline

/-- What an execution of `pipeline` must have come to for it to have this result. -/
def AccountsFor (machine : Machine δ) (pipeline : Pipeline) : Except MachineError Ending → Prop
  | .error _ => False
  | .ok .completed => machine.RunsThrough pipeline
  | .ok (.transferred index) => machine.StopsAt pipeline index .flush
  | .ok (.trapped index kind) =>
    machine.StopsAt pipeline index (.raise kind) ∧
      (machine.execute pipeline).machine.traps.contains kind

theorem execute_eq (machine : Machine δ) (pipeline : Pipeline) {result : Except MachineError Ending}
    {final : Machine δ}
    (ends : Datapath.run { machine := machine, signals := .quiet } 0 pipeline.ops =
      (result, final)) :
    machine.execute pipeline =
      { result := result
        pipeline := pipeline.flushed result
        machine := final } := by
  simp only [execute, ends]

theorem runsThrough_of_steps {last : Datapath δ}
    (steps : Datapath.Steps { machine := machine, signals := .quiet } pipeline.ops last) :
    (machine.execute pipeline).result = .ok .completed ∧ machine.RunsThrough pipeline := by
  have execution := machine.execute_eq pipeline (steps.run_eq 0)
  constructor
  · rw [execution]
  · constructor
    · exact ⟨last, steps, by rw [execution]⟩
    · rw [execution]
      rfl

/-- A micro-operation ends every run that comes to it, whatever stands behind it. -/
theorem stopsAt_of_run {before : List MicroOp} {op : MicroOp} {after : List MicroOp}
    {middle : Datapath δ} {ending : Ending} {final : Machine δ} {disposition : Disposition}
    (split : pipeline.ops = before ++ op :: after)
    (steps : Datapath.Steps { machine := machine, signals := .quiet } before middle)
    (stops : (op.effect middle).disposition = disposition) (notNext : disposition ≠ .next)
    (ends : ∀ tail, Datapath.run { machine := machine, signals := .quiet } 0
      (before ++ op :: tail) = (.ok ending, final))
    (flushes : ∀ pipeline : Pipeline,
      pipeline.flushed (.ok ending) = pipeline.truncate (before.length + 1)) :
    machine.StopsAt pipeline before.length disposition := by
  have upTo : pipeline.ops.take before.length = before := by simp [split]
  have execution := machine.execute_eq pipeline (split ▸ ends after)
  constructor
  · refine ⟨op, middle, by simp [split], ?_, stops, notNext⟩
    rw [upTo]
    exact steps
  · intro length inside
    rcases steps.take length with ⟨reached, early⟩
    have truncated : (pipeline.truncate length).ops = before.take length := by
      change pipeline.ops.take length = _
      rw [← upTo, List.take_take, Nat.min_eq_left inside]
    rw [← truncated] at early
    exact (runsThrough_of_steps early).1
  · rw [execution, flushes]
    rfl
  · intro other same
    have ran : pipeline.ops.take (before.length + 1) = before ++ [op] := by
      simp [split, List.take_append, List.take_of_length_le]
    have otherSplit : other.ops = before ++ op :: other.ops.drop (before.length + 1) := by
      rw [← List.take_append_drop (before.length + 1) other.ops, same, ran]
      simp
    have otherExecution := machine.execute_eq other (otherSplit ▸ ends _)
    rw [execution, otherExecution, flushes, flushes]
    congr 1
    exact Pipeline.eq_of_ops same

/-- An execution never fails. It runs its micro-operations in order as far as the first
that ends the instruction, keeps exactly these, and comes to the same with any
others behind them; a trap that ended it is pending. -/
theorem execute_accountsFor (machine : Machine δ) (pipeline : Pipeline) :
    machine.AccountsFor pipeline (machine.execute pipeline).result := by
  rcases Datapath.exists_steps_or_stop { machine := machine, signals := .quiet } pipeline.ops with
    ⟨last, steps⟩ | ⟨before, op, after, middle, split, steps, stops⟩
  · have through := runsThrough_of_steps steps
    rw [through.1]
    exact through.2
  · have reaches (tail : List MicroOp) :=
      (steps.run_append 0 (op :: tail)).trans (middle.run_cons _ op tail)
    rw [Nat.zero_add] at reaches
    cases disposition : (op.effect middle).disposition with
    | next => exact absurd disposition stops
    | flush =>
        simp only [disposition] at reaches
        have execution := machine.execute_eq pipeline (split ▸ reaches after)
        rw [execution]
        exact stopsAt_of_run split steps disposition (by decide) reaches fun _ => rfl
    | raise kind =>
        simp only [disposition] at reaches
        have execution := machine.execute_eq pipeline (split ▸ reaches after)
        rw [execution]
        refine ⟨stopsAt_of_run split steps disposition Disposition.noConfusion reaches
          fun _ => rfl, ?_⟩
        rw [execution]
        simp [raise]

/-- A load from an odd address; the constant behind it is never loaded. -/
def oddLoad : Pipeline where
  ops := [.loadImm .r1 1, .load .r0 .r1 .word .data, .loadImm .r2 7]
  length_le := by decide

example :
    let execution := (ofConfig Config.default NoDevices.none).execute oddLoad
    execution.result = .ok (.trapped 1 .oddAddress) ∧ execution.pipeline.length = 2 ∧
      execution.machine.reg .r2 = 0 :=
  ⟨rfl, rfl, rfl⟩

end Machine

end Pdp11
