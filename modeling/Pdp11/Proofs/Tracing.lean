import Pdp11.Proofs.DoubleFaults
import Pdp11.Proofs.Halting
import Pdp11.Proofs.ProgramShape
import Pdp11.Proofs.Restart

/-!
# The trace trap

A step decides once, after its instruction, whether to raise the trace trap.
Nothing before that touches the trap itself, only a return with `RTT` that is
carried out puts it off, and only a halt in kernel mode stands in for it. The
service that follows never leaves it pending.
-/

namespace Pdp11

universe u

theorem AccessError.trapClass_ne_trace (error : AccessError) : error.trapClass ≠ .trace := by
  cases error <;> simp [trapClass]

variable {δ : Type u} [Bus δ]

/-! ## Micro-operations -/

namespace MicroOp

theorem contains_trace_effect (op : MicroOp) (datapath : Datapath δ) :
    (op.effect datapath).datapath.machine.traps.contains .trace =
      datapath.machine.traps.contains .trace := by
  by_cases guards : op = .stackGuard
  · subst guards
    simp only [effect, Machine.guardStack, Datapath.stop]
    split
    · change (datapath.machine.traps.insert .stackOverflow).contains .trace = _
      simp
    · split <;> simp [Machine.raise]
  · rw [traps_effect guards, TrapSet.contains_insertIf]
    simp

/-- What a micro-operation raises for itself is not the trace trap. -/
theorem ne_trace_of_raises {op : MicroOp} {datapath : Datapath δ} {kind : TrapClass}
    (other : op ≠ .raiseTrap .trace)
    (raises : (op.effect datapath).disposition = .raise kind) : kind ≠ .trace := by
  have raising := canRaise_of_raises raises
  cases op
  case load | store =>
    have isAbort : kind.isAbort := isAbort_of_raises (by simp [isLoad, isStore]) raises
    rintro rfl
    contradiction
  case halt =>
    simp only [effect] at raises
    split at raises <;> cases raises
    simp
  case stackGuard =>
    simp only [effect, Machine.guardStack] at raises
    split at raises
    · cases raises
      simp
    · split at raises <;> contradiction
  case raiseTrap raised =>
    rintro rfl
    cases raises
    exact other rfl
  all_goals contradiction

theorem traceInhibited_effect {op : MicroOp} (other : op ≠ .inhibitTrace)
    (datapath : Datapath δ) :
    (op.effect datapath).datapath.machine.traceInhibited = datapath.machine.traceInhibited := by
  cases op
  case load dst address width space =>
    rw [machine_load,
      (datapath.machine.accessed_loadSelected (datapath.reg address) width space).rest]
  case store address src width space =>
    rw [machine_store]
    rcases datapath.machine.write_rest (datapath.machine.selectedMode space.mode)
      (datapath.reg address) (datapath.reg src) width with
      ⟨ram, psw, pswWritten, mmu, traps, devices, rest⟩
    rw [Machine.storeSelected, rest]
  case stackGuard =>
    simp only [effect, Machine.guardStack]
    split
    · rfl
    · split <;> rfl
  case halt | wait | reset | div | evalFlags | setPriority =>
    simp only [effect, Datapath.proceed]
    split <;> rfl
  case inhibitTrace => contradiction
  all_goals rfl

theorem not_halted_effect {op : MicroOp} {datapath : Datapath δ} (other : op ≠ .halt)
    (going : datapath.machine.runState ≠ .halted) :
    (op.effect datapath).datapath.machine.runState ≠ .halted := by
  cases controls : op.controls with
  | false =>
      rw [(sameControl_effect controls datapath).runState]
      exact going
  | true =>
      cases op
      case wait =>
        simp only [effect]
        split
        · simp [Datapath.stop]
        · exact going
      case reset =>
        simp only [effect]
        split <;> exact going
      case halt => contradiction
      all_goals contradiction

theorem endsInstruction_of_flushes {op : MicroOp} {datapath : Datapath δ}
    (flushes : (op.effect datapath).disposition = .flush) : op.endsInstruction := by
  cases op
  case halt | wait | branch | jump => rfl
  case load | store | div | evalFlags =>
    simp only [effect] at flushes
    split at flushes <;> contradiction
  case stackGuard =>
    simp only [effect, Machine.guardStack] at flushes
    split at flushes
    · contradiction
    · split at flushes <;> contradiction
  all_goals contradiction

end MicroOp

/-! ## Runs -/

namespace Datapath

variable {datapath : Datapath δ} {ops : List MicroOp} {index : Nat}

theorem contains_trace_run (absent : .raiseTrap .trace ∉ ops) :
    (datapath.run index ops).2.traps.contains .trace = datapath.machine.traps.contains .trace := by
  apply run_preserves fun machine =>
    machine.traps.contains .trace = datapath.machine.traps.contains .trace
  · intro op opMem reached same
    exact (op.contains_trace_effect reached).trans same
  · intro op opMem reached kind raises machine same
    have unlike := MicroOp.ne_trace_of_raises (ne_of_mem_of_not_mem opMem absent) raises
    simp [Machine.raise, unlike.symm, same]
  · rfl

theorem traceInhibited_run (absent : .inhibitTrace ∉ ops) :
    (datapath.run index ops).2.traceInhibited = datapath.machine.traceInhibited := by
  apply run_preserves fun machine => machine.traceInhibited = datapath.machine.traceInhibited
  · intro op opMem reached same
    exact (MicroOp.traceInhibited_effect (ne_of_mem_of_not_mem opMem absent) reached).trans same
  · intro op opMem reached kind raises machine same
    exact same
  · rfl

theorem not_halted_run (absent : .halt ∉ ops) (going : datapath.machine.runState ≠ .halted) :
    (datapath.run index ops).2.runState ≠ .halted := by
  apply run_preserves fun machine => machine.runState ≠ .halted
  · intro op opMem reached goes
    exact MicroOp.not_halted_effect (ne_of_mem_of_not_mem opMem absent) goes
  · intro op opMem reached kind raises machine goes
    exact goes
  · exact going

/-- What cannot transfer control traps somewhere or goes on to its end. -/
theorem trapped_or_exists_steps (datapath : Datapath δ) (index : Nat)
    (goesOn : ∀ op ∈ ops, op.endsInstruction = false) :
    (∃ position kind, (datapath.run index ops).1 = .ok (.trapped position kind)) ∨
      ∃ final, Steps datapath ops final := by
  rcases datapath.exists_steps_or_stop ops with
    ⟨final, steps⟩ | ⟨before, op, after, middle, rfl, steps, stops⟩
  · exact .inr ⟨final, steps⟩
  · cases disposition : (op.effect middle).disposition with
    | next => contradiction
    | flush =>
        have ends := MicroOp.endsInstruction_of_flushes disposition
        rw [goesOn op (List.mem_append_right _ List.mem_cons_self)] at ends
        contradiction
    | raise kind =>
        refine .inl ⟨index + before.length, kind, ?_⟩
        rw [steps.run_append, run_cons, disposition]

end Datapath

/-! ## Instructions -/

namespace Instruction

variable (instruction : Instruction)

theorem raiseTrap_trace_not_mem_program : .raiseTrap .trace ∉ instruction.program := by
  intro asks
  have special := instruction.shaped_program.mem_of_isSpecial asks rfl
  cases opcode : instruction.opcode <;> simp [opcode, Opcode.specials] at special

variable {instruction}

theorem inhibitTrace_not_mem_program (notRtt : instruction.opcode ≠ .rtt) :
    .inhibitTrace ∉ instruction.program := by
  intro inhibits
  have special := instruction.shaped_program.mem_of_isSpecial inhibits rfl
  cases opcode : instruction.opcode <;> simp [opcode, Opcode.specials] at special notRtt

theorem halt_not_mem_program (notHalt : instruction.opcode ≠ .halt) :
    .halt ∉ instruction.program := by
  intro halts
  have special := instruction.shaped_program.mem_of_isSpecial halts rfl
  cases opcode : instruction.opcode <;> simp [opcode, Opcode.specials] at special notHalt

end Instruction

namespace Machine

variable {fetched : Machine δ} {instruction : Instruction} {pipeline : Pipeline}

theorem contains_trace_execute (encoded : instruction.encode = .ok pipeline) :
    (fetched.execute pipeline).machine.traps.contains .trace = fetched.traps.contains .trace := by
  have absent := instruction.raiseTrap_trace_not_mem_program
  rw [← Pipeline.ofOps_eq_ok_iff.mp encoded] at absent
  exact Datapath.contains_trace_run absent

/-- The return that puts the trace trap off does so after all it may trap at. -/
theorem run_of_rtt (isRtt : instruction.opcode = .rtt) (datapath : Datapath δ) :
    (∃ position kind, (datapath.run 0 instruction.program).1 = .ok (.trapped position kind) ∧
      (datapath.run 0 instruction.program).2.traceInhibited = datapath.machine.traceInhibited) ∨
    ∃ position, (datapath.run 0 instruction.program).1 = .ok (.transferred position) ∧
      (datapath.run 0 instruction.program).2.traceInhibited = true := by
  have goesOn : ∀ op ∈ MicroOp.pop .t0 ++ MicroOp.pop .t1 ++ [.loadPsw .t1 .ordinary],
      op.endsInstruction = false := by decide
  have absent : .inhibitTrace ∉
      MicroOp.pop .t0 ++ MicroOp.pop .t1 ++ [.loadPsw .t1 .ordinary] := by decide
  have program : instruction.program =
      MicroOp.pop .t0 ++ MicroOp.pop .t1 ++ [.loadPsw .t1 .ordinary] ++
        [.inhibitTrace, .jump instruction.pc .t0] := by
    rw [Instruction.program, isRtt]
    rfl
  rw [program]
  rcases datapath.trapped_or_exists_steps 0 goesOn with
    ⟨position, kind, trapped⟩ | ⟨popped, steps⟩
  · left
    rw [Datapath.run_append_of_trapped trapped]
    exact ⟨position, kind, trapped, Datapath.traceInhibited_run absent⟩
  · right
    rw [steps.run_append]
    exact ⟨_, rfl, rfl⟩

/-- The trace trap is put off by a return that comes to its end, and by nothing
else. -/
theorem traceInhibited_execute (encoded : instruction.encode = .ok pipeline)
    (uninhibited : fetched.traceInhibited = false) :
    (fetched.execute pipeline).machine.traceInhibited ↔
      instruction.opcode = .rtt ∧ (fetched.execute pipeline).trap? = none := by
  have program := Pipeline.ofOps_eq_ok_iff.mp encoded
  by_cases isRtt : instruction.opcode = .rtt
  · have ran := run_of_rtt isRtt { machine := fetched, signals := .quiet }
    rw [← program] at ran
    rcases ran with ⟨position, kind, trapped, kept⟩ | ⟨position, transferred, inhibited⟩
    · have traps : (fetched.execute pipeline).trap? = some kind :=
        trap?_eq_some_iff.mpr ⟨position, trapped⟩
      have still : (fetched.execute pipeline).machine.traceInhibited = false :=
        kept.trans uninhibited
      simp [traps, still]
    · have untrapped : (fetched.execute pipeline).trap? = none := by
        apply trap?_eq_none_iff.mpr
        simp [transferred]
      exact iff_of_true inhibited ⟨isRtt, untrapped⟩
  · have absent := Instruction.inhibitTrace_not_mem_program isRtt
    rw [← program] at absent
    have kept : (fetched.execute pipeline).machine.traceInhibited = fetched.traceInhibited :=
      Datapath.traceInhibited_run absent
    rw [kept, uninhibited]
    simp [isRtt]

/-- A running machine is halted by a halt in kernel mode, and by nothing else. -/
theorem halted_execute (encoded : instruction.encode = .ok pipeline)
    (running : fetched.runState = .running) :
    (fetched.execute pipeline).machine.runState = .halted ↔
      instruction.opcode = .halt ∧ fetched.psw.mode = .kernel := by
  have program := Pipeline.ofOps_eq_ok_iff.mp encoded
  by_cases isHalt : instruction.opcode = .halt
  · have one : pipeline.ops = [.halt] := by
      rw [program, Instruction.program, isHalt]
    by_cases kernel : fetched.psw.mode = .kernel
    · have halted : (fetched.execute pipeline).machine = { fetched with runState := .halted } :=
        congrArg Prod.snd ((perform_of_encode encoded).symm.trans (perform_of_halt kernel isHalt))
      rw [halted]
      exact iff_of_true rfl ⟨isHalt, kernel⟩
    · have outside : fetched.inKernel = false := decide_eq_false kernel
      have refused : (fetched.execute pipeline).machine = fetched.raise .illegal := by
        simp only [execute, one, Datapath.run_cons, MicroOp.effect, outside]
        rfl
      rw [refused]
      simp [raise, running, kernel]
  · have absent := Instruction.halt_not_mem_program isHalt
    rw [← program] at absent
    have going : (fetched.execute pipeline).machine.runState ≠ .halted :=
      Datapath.not_halted_run absent (by simp [running])
    simp [going, isHalt]

/-- An instruction that traps leaves the status word as it was. -/
theorem psw_execute_of_trapped {kind : TrapClass} (encoded : instruction.encode = .ok pipeline)
    (trapped : (fetched.execute pipeline).trap? = some kind) :
    (fetched.execute pipeline).machine.psw = fetched.psw := by
  have order := instruction.commits_last
  rw [← Pipeline.ofOps_eq_ok_iff.mp encoded] at order
  rcases trap?_eq_some_iff.mp trapped with ⟨index, ends⟩
  exact (Datapath.sameResults_of_run_trapped order (Prod.ext ends rfl)).psw

/-! ## The fetch -/

omit [Bus δ] in
theorem contains_trace_raise (machine : Machine δ) {kind : TrapClass} (other : kind ≠ .trace) :
    (machine.raise kind).traps.contains .trace = machine.traps.contains .trace := by
  simp [raise, other.symm]

theorem contains_trace_fetchWord (machine : Machine δ) (cycle : MemoryCycle) :
    (machine.fetchWord cycle).2.traps.contains .trace = machine.traps.contains .trace := by
  have read : (machine.read machine.psw.mode cycle machine.pc .word).2.traps.contains .trace =
      machine.traps.contains .trace := by
    simp [traps_read]
  simp only [fetchWord]
  split <;> rename_i outcome <;> rw [outcome] at read
  · exact read
  · exact read

theorem contains_trace_fetchExtension (machine : Machine δ) (instruction : Instruction)
    (count : Nat) :
    (machine.fetchExtension instruction count).2.traps.contains .trace =
      machine.traps.contains .trace := by
  induction count generalizing machine instruction with
  | zero => rfl
  | succ count ih =>
      have word := machine.contains_trace_fetchWord .instructionStream
      rw [fetchExtension]
      split <;> rename_i outcome <;> rw [outcome] at word
      · exact (contains_trace_raise _ (AccessError.trapClass_ne_trace _)).trans word
      · exact (ih _ _).trans word

theorem contains_trace_fetch (machine : Machine δ) :
    machine.fetch.2.traps.contains .trace = machine.traps.contains .trace := by
  have word := machine.contains_trace_fetchWord .fetch
  simp only [fetch]
  split <;> rename_i outcome <;> rw [outcome] at word
  · exact (contains_trace_raise _ (AccessError.trapClass_ne_trace _)).trans word
  · split
    · exact (contains_trace_raise _ (by decide)).trans word
    · exact (contains_trace_raise _ (by decide)).trans word
    · exact (contains_trace_fetchExtension _ _ _).trans word

/-! ## Steps -/

variable {machine after final : Machine δ} {execution : Execution δ} {opcode : Opcode}

/-- The next step fetches `instruction`, and `execution` is what comes of it. -/
def Performs (machine : Machine δ) (instruction : Instruction) (execution : Execution δ) : Prop :=
  ∃ fetched pipeline, machine.poll.startInstruction.fetch = (.ready instruction, fetched) ∧
    instruction.encode = .ok pipeline ∧ fetched.execute pipeline = execution

/-- The instruction of the next step has `opcode`. -/
def Fetches (machine : Machine δ) (opcode : Opcode) : Prop :=
  ∃ instruction execution, machine.Performs instruction execution ∧ instruction.opcode = opcode

/-- The instruction of the next step has `opcode` and comes to its end without a
trap, which leaves `final`. -/
def CarriesOut (machine : Machine δ) (opcode : Opcode) (final : Machine δ) : Prop :=
  ∃ instruction execution, machine.Performs instruction execution ∧
    instruction.opcode = opcode ∧ execution.trap? = none ∧ execution.machine = final

theorem CarriesOut.fetches (carriesOut : machine.CarriesOut opcode final) :
    machine.Fetches opcode := by
  rcases carriesOut with ⟨instruction, execution, performs, isOpcode, -⟩
  exact ⟨instruction, execution, performs, isOpcode⟩

/-- The trace trap is pending when the next step comes to serve an exception. -/
def raisesTrace (machine : Machine δ) : Bool :=
  machine.beforeService.traps.contains .trace

namespace Performs

theorem unique {other : Instruction} {another : Execution δ}
    (performs : machine.Performs instruction execution) (again : machine.Performs other another) :
    other = instruction ∧ another = execution := by
  rcases performs with ⟨fetched, pipeline, ready, encoded, rfl⟩
  rcases again with ⟨fetched, pipeline, readyAgain, encodedAgain, rfl⟩
  cases ready.symm.trans readyAgain
  cases encoded.symm.trans encodedAgain
  exact ⟨rfl, rfl⟩

theorem fetches_iff (performs : machine.Performs instruction execution) :
    machine.Fetches opcode ↔ instruction.opcode = opcode := by
  constructor
  · rintro ⟨other, another, again, same⟩
    rcases performs.unique again with ⟨rfl, -⟩
    exact same
  · intro same
    exact ⟨instruction, execution, performs, same⟩

theorem carriesOut_iff (performs : machine.Performs instruction execution) :
    machine.CarriesOut opcode final ↔
      instruction.opcode = opcode ∧ execution.trap? = none ∧ execution.machine = final := by
  constructor
  · rintro ⟨other, another, again, ends⟩
    rcases performs.unique again with ⟨rfl, rfl⟩
    exact ends
  · intro ends
    exact ⟨instruction, execution, performs, ends⟩

/-- What is carried out starts from a machine that a fetch has left. -/
theorem exists_execute (performs : machine.Performs instruction execution) :
    ∃ fetched pipeline, machine.poll.startInstruction.FetchedFrom fetched ∧
      fetched.traps.contains .trace = machine.traps.contains .trace ∧
      instruction.encode = .ok pipeline ∧ fetched.execute pipeline = execution := by
  rcases performs with ⟨fetched, pipeline, ready, encoded, executed⟩
  have kept := machine.poll.startInstruction.fetchedFrom_fetch
  have pending := machine.poll.startInstruction.contains_trace_fetch
  rw [ready] at kept pending
  exact ⟨fetched, pipeline, kept, pending, encoded, executed⟩

theorem contains_trace (performs : machine.Performs instruction execution) :
    execution.machine.traps.contains .trace = machine.traps.contains .trace := by
  rcases performs.exists_execute with ⟨fetched, pipeline, -, pending, encoded, rfl⟩
  exact (contains_trace_execute encoded).trans pending

theorem traceInhibited_iff (performs : machine.Performs instruction execution) :
    execution.machine.traceInhibited ↔
      instruction.opcode = .rtt ∧ execution.trap? = none := by
  rcases performs.exists_execute with ⟨fetched, pipeline, kept, -, encoded, rfl⟩
  exact traceInhibited_execute encoded kept.traceInhibited

theorem halted_iff (performs : machine.Performs instruction execution)
    (running : machine.runState = .running) :
    execution.machine.runState = .halted ↔
      instruction.opcode = .halt ∧ machine.psw.mode = .kernel := by
  rcases performs.exists_execute with ⟨fetched, pipeline, kept, -, encoded, rfl⟩
  rw [halted_execute encoded (kept.runState.trans running), kept.psw]
  rfl

theorem psw_of_trapped {kind : TrapClass} (performs : machine.Performs instruction execution)
    (trapped : execution.trap? = some kind) : execution.machine.psw = machine.psw := by
  rcases performs.exists_execute with ⟨fetched, pipeline, kept, -, encoded, rfl⟩
  exact (psw_execute_of_trapped encoded trapped).trans kept.psw

end Performs

/-- The next instruction has one opcode. -/
theorem Fetches.unique {other : Opcode} (fetches : machine.Fetches opcode)
    (again : machine.Fetches other) : opcode = other := by
  rcases fetches with ⟨instruction, execution, performs, rfl⟩
  exact performs.fetches_iff.mp again

omit [Bus δ] in
theorem contains_trace_traceAfter (machine : Machine δ) (traced : Bool) :
    (machine.traceAfter traced).traps.contains .trace ↔
      machine.traps.contains .trace ∨
        traced ∧ machine.traceInhibited = false ∧ machine.runState ≠ .halted := by
  unfold traceAfter
  split
  · rename_i traces
    simp only [Bool.not_eq_true'] at traces
    simp [raise, traces]
  · rename_i silent
    simp only [Bool.not_eq_true', not_and] at silent
    simp only [iff_self_or]
    rintro ⟨traced, uninhibited, going⟩
    exact absurd going (silent traced uninhibited)

/-- Before a step serves an exception it has carried out an instruction, or found
none that could be carried out. -/
theorem beforeService_cases (machine : Machine δ) :
    (∃ instruction execution, machine.Performs instruction execution ∧
      machine.beforeService = execution.machine.traceAfter
        (machine.psw.trace || (instruction.opcode = .rti && execution.machine.psw.trace))) ∨
    (∀ instruction execution, ¬ machine.Performs instruction execution) ∧
      machine.beforeService =
        machine.poll.startInstruction.fetch.2.traceAfter machine.psw.trace := by
  cases fetch : machine.poll.startInstruction.fetch with
  | mk outcome fetched =>
      cases outcome with
      | ready instruction =>
          rcases instruction.exists_encode with ⟨pipeline, encoded, -⟩
          have performs : machine.Performs instruction (fetched.execute pipeline) :=
            ⟨fetched, pipeline, fetch, encoded, rfl⟩
          refine .inl ⟨instruction, _, performs, ?_⟩
          simp only [beforeService, fetchAndPerform, fetch, perform_of_encode encoded]
          rfl
      | deferred _ | aborted _ =>
          right
          constructor
          · rintro instruction execution ⟨_, _, ready, -⟩
            cases fetch.symm.trans ready
          · simp only [beforeService, fetchAndPerform, fetch, Bool.or_false]
            rfl

/-- The trace trap is raised after a traced instruction, unless that is a return
that puts it off or a halt, and after a return that leaves the processor
traced. -/
theorem raisesTrace_iff (running : machine.runState = .running)
    (untraced : machine.traps.contains .trace = false) :
    machine.raisesTrace ↔
      (machine.psw.trace ∧ ¬ (∃ final, machine.CarriesOut .rtt final) ∧
        ¬ (machine.Fetches .halt ∧ machine.psw.mode = .kernel)) ∨
      ∃ final, machine.CarriesOut .rti final ∧ final.psw.trace := by
  rcases machine.beforeService_cases with
    ⟨instruction, execution, performs, before⟩ | ⟨nothing, before⟩
  · rw [raisesTrace, before, contains_trace_traceAfter, performs.contains_trace, untraced,
      ← Bool.not_eq_true, performs.traceInhibited_iff, Ne, performs.halted_iff running,
      performs.fetches_iff]
    simp only [performs.carriesOut_iff, and_assoc, exists_and_left, exists_eq', exists_eq_left',
      and_true, Bool.or_eq_true, Bool.and_eq_true, decide_eq_true_eq, Bool.false_eq_true,
      false_or]
    constructor
    · rintro ⟨traced | ⟨isRti, traced⟩, notPutOff, going⟩
      · exact .inl ⟨traced, notPutOff, going⟩
      · cases outcome : execution.trap? with
        | none => exact .inr ⟨isRti, rfl, traced⟩
        | some kind =>
            -- a return that traps has not loaded the status word yet
            rw [performs.psw_of_trapped outcome] at traced
            exact .inl ⟨traced, by simp, going⟩
    · rintro (⟨traced, notPutOff, going⟩ | ⟨isRti, carriesOut, traced⟩)
      · exact ⟨.inl traced, notPutOff, going⟩
      · exact ⟨.inr ⟨isRti, traced⟩, by simp [isRti], by simp [isRti]⟩
  · have kept := machine.poll.startInstruction.fetchedFrom_fetch
    have pending : machine.poll.startInstruction.fetch.2.traps.contains .trace = false :=
      (contains_trace_fetch _).trans untraced
    have runs : machine.poll.startInstruction.fetch.2.runState = .running :=
      kept.runState.trans running
    have uninhibited : machine.poll.startInstruction.fetch.2.traceInhibited = false :=
      kept.traceInhibited
    rw [raisesTrace, before, contains_trace_traceAfter, pending, uninhibited, runs]
    simp [CarriesOut, Fetches, nothing]

theorem step_eq_finish (running : machine.runState = .running) :
    machine.step = machine.beforeService.finish := by
  have alive : machine.poll.startInstruction.Alive := congrArg RunState.error? running
  rcases exists_fetchAndPerform alive with ⟨resumed, after, performed, -⟩
  simp only [step, running, cycle, beforeService, performed]

/-! ## Service -/

/-- Service that ends well leaves no trace trap, and if there was one it enters a
handler. -/
theorem untraced_of_service {answer : Option Word}
    (served : machine.service = (.ok answer, after)) :
    after.traps.contains .trace = false ∧
      (machine.traps.contains .trace → ∃ vector, answer = some vector) := by
  cases first : machine.traps.first? with
  | some kind =>
      rcases acknowledge?_of_first? first with ⟨acknowledged, chosen, -, traps, -⟩
      rcases exists_vector_of_service chosen served with ⟨vector, rfl⟩
      rcases entered_of_service chosen served with ⟨-, added, -⟩
      constructor
      · simp [added, traps]
      · intro
        exact ⟨vector, rfl⟩
  | none =>
      have untraced : machine.traps.contains .trace = false :=
        TrapSet.any_eq_false_iff.mp (TrapSet.first?_eq_none_iff.mp first) .trace
      constructor
      · cases strongest : machine.requests.strongestAbove? machine.psw.priority.toNat with
        | some line =>
            rcases acknowledge?_of_strongestAbove? first strongest with
              ⟨acknowledged, chosen, -, traps, -⟩
            rcases exists_vector_of_service chosen served with ⟨vector, rfl⟩
            rcases entered_of_service chosen served with ⟨-, added, -⟩
            simp [added, traps, untraced]
        | none =>
            rw [service, acknowledge?_eq_none_iff.mpr ⟨first, strongest⟩] at served
            cases served
            exact untraced
      · intro traced
        rw [untraced] at traced
        contradiction

theorem untraced_of_finish {answer : StepResult}
    (finished : machine.finish = (.ok answer, after)) :
    after.traps.contains .trace = false ∧
      (machine.traps.contains .trace → ∃ vector, answer = .trapped vector) := by
  unfold finish at finished
  split at finished <;> rename_i outcome
  · simp [latch] at finished
  · rcases untraced_of_service outcome with ⟨untraced, -⟩
    cases finished
    exact ⟨untraced, fun _ => ⟨_, rfl⟩⟩
  · rcases untraced_of_service outcome with ⟨untraced, entered⟩
    cases finished
    constructor
    · exact untraced
    · intro traced
      rcases entered traced with ⟨vector, isSome⟩
      contradiction

/-- How a step of `machine` that ended with `answer` in `after` dealt with the
trace trap. -/
structure TracesExactly (machine : Machine δ) (answer : StepResult) (after : Machine δ) :
    Prop where
  serves : machine.step = machine.beforeService.finish
  traced : machine.psw.trace → (∃ vector, answer = .trapped vector) ∨
    (∃ final, machine.CarriesOut .rtt final) ∨
    (machine.Fetches .halt ∧ machine.psw.mode = .kernel)
  untraced : machine.psw.trace = false → ¬ machine.Fetches .rti → machine.raisesTrace = false
  resumes (final : Machine δ) :
    machine.CarriesOut .rti final → final.psw.trace → machine.raisesTrace
  putsOff (final : Machine δ) : machine.CarriesOut .rtt final → machine.raisesTrace = false
  gone : after.traps.contains .trace = false

/-- A step that ends well raises the trace trap after a traced instruction, unless
that is a return that puts it off or a halt, and after a return that leaves the
processor traced. Otherwise it raises none, and none stays pending. -/
theorem trace_exact {answer : StepResult} (running : machine.runState = .running)
    (untraced : machine.traps.contains .trace = false)
    (steps : machine.step = (.ok answer, after)) : machine.TracesExactly answer after := by
  have serves := step_eq_finish running
  have raises := raisesTrace_iff running untraced
  rcases untraced_of_finish (serves.symm.trans steps) with ⟨gone, entered⟩
  constructor
  case serves => exact serves
  case gone => exact gone
  case traced =>
    intro traced
    by_cases putOff : ∃ final, machine.CarriesOut .rtt final
    · exact .inr (.inl putOff)
    by_cases halts : machine.Fetches .halt ∧ machine.psw.mode = .kernel
    · exact .inr (.inr halts)
    · exact .inl (entered (raises.mpr (.inl ⟨traced, putOff, halts⟩)))
  case untraced =>
    intro clear notRti
    apply Bool.eq_false_iff.mpr
    intro isRaised
    rcases raises.mp isRaised with ⟨traced, -, -⟩ | ⟨final, carriesOut, -⟩
    · rw [clear] at traced
      contradiction
    · exact notRti carriesOut.fetches
  case resumes =>
    intro final carriesOut traced
    exact raises.mpr (.inr ⟨final, carriesOut, traced⟩)
  case putsOff =>
    intro final carriesOut
    apply Bool.eq_false_iff.mpr
    intro isRaised
    rcases raises.mp isRaised with ⟨-, notPutOff, -⟩ | ⟨other, isRti, -⟩
    · exact notPutOff ⟨final, carriesOut⟩
    · have same := carriesOut.fetches.unique isRti.fetches
      contradiction

/-- An `RTI` that takes a traced status word from the stack, with the handler of
the trace trap at 0. -/
def returnTraced : Machine NoDevices :=
  { ofConfig Config.default .none with
    registers := RegisterFile.cleared.set (.stackPointer .kernel) 0o20
    psw := .ofBits 0
    ram := { bytes := #[2, 0, 0, 0, 0, 0, 0, 0, 0, 0, 0, 0, 0, 0, 0o340, 0, 4, 0, 0o20, 0] } }

/-- The instruction that `returnTraced` fetches. -/
def returnWord : Instruction where
  pc := 0
  word := 2
  opcode := .rti
  extension := []

/-- The program of `returnWord`. -/
def returnPipeline : Pipeline where
  ops := returnWord.program
  length_le := by decide

/-- The trap comes in the step of the return. -/
theorem trace_returnTraced :
    ∃ after, returnTraced.step = (.ok (.trapped 0o14), after) ∧ returnTraced.raisesTrace ∧
      after.traps.contains .trace = false := by
  have steps : returnTraced.step = (.ok (.trapped 0o14), returnTraced.step.2) := Prod.ext rfl rfl
  have ready : returnTraced.poll.startInstruction.fetch =
      (.ready returnWord, returnTraced.poll.startInstruction.fetch.2) := Prod.ext rfl rfl
  have performs : returnTraced.Performs returnWord
      (returnTraced.poll.startInstruction.fetch.2.execute returnPipeline) :=
    ⟨_, returnPipeline, ready, Pipeline.ofOps_eq_ok_iff.mpr rfl, rfl⟩
  have carriesOut : returnTraced.CarriesOut .rti
      (returnTraced.poll.startInstruction.fetch.2.execute returnPipeline).machine :=
    ⟨returnWord, _, performs, rfl, rfl, rfl⟩
  have traces := trace_exact rfl rfl steps
  exact ⟨returnTraced.step.2, steps, traces.resumes _ carriesOut rfl, traces.gone⟩

end Machine

end Pdp11
