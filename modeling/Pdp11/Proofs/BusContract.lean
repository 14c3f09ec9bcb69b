import Pdp11.Proofs.BusTraffic
import Pdp11.Proofs.Tracing

/-!
# What devices can rely on

Every step of a processor that has not stopped polls the devices first, and once.
After that they meet proper calls alone, and of one instruction at most one
write. Where they do not answer, a bus error is due, or a handler could not be
entered: the step ends at the handler of bus errors or stops the machine for
good, and never as if nothing had happened.
-/

namespace Pdp11

universe u

variable {δ : Type u} [Bus δ]

namespace Machine

variable {machine : Machine (Recorded δ)}

/-! ## Fetch -/

theorem exchanges_fetchWord (machine : Machine (Recorded δ)) (cycle : MemoryCycle) :
    Exchanges machine (machine.fetchWord cycle).2 0
      ((machine.fetchWord cycle).1 = .error .nonexistent) := by
  have reads := machine.exchanges_read machine.psw.mode cycle machine.pc .word
  unfold fetchWord
  dsimp only
  split <;> rename_i outcome <;> rw [outcome] at reads
  · exact reads
  · exact (reads.mono (Nat.le_refl _) (by simp)).of_same rfl rfl

/-- A fetch that devices did not answer leaves a bus error. -/
def FetchFails (fetched : Fetched × Machine (Recorded δ)) : Prop :=
  fetched.1 = .aborted .nonexistent ∧ fetched.2.traps.contains .busError

omit [Bus δ] in
theorem fetchFails_abortFetch {error : AccessError} (machine : Machine (Recorded δ))
    (refused : (Except.error error : Except AccessError Word) = .error .nonexistent) :
    FetchFails (machine.abortFetch error) := by
  cases refused
  constructor
  · rfl
  · simp [abortFetch, raise, AccessError.trapClass]

theorem exchanges_fetchExtension (machine : Machine (Recorded δ)) (instruction : Instruction)
    (count : Nat) :
    Exchanges machine (machine.fetchExtension instruction count).2 0
      (FetchFails (machine.fetchExtension instruction count)) := by
  induction count generalizing machine instruction with
  | zero => exact .refl machine
  | succ count ih =>
      have word := machine.exchanges_fetchWord .instructionStream
      rw [fetchExtension]
      split <;> rename_i outcome <;> rw [outcome] at word
      · exact (word.mono (Nat.le_refl _) (fetchFails_abortFetch _)).of_same rfl rfl
      · exact word.followed (by simp) (ih _ _)

theorem exchanges_fetch (machine : Machine (Recorded δ)) :
    Exchanges machine machine.fetch.2 0 (FetchFails machine.fetch) := by
  have word := machine.exchanges_fetchWord .fetch
  unfold fetch
  dsimp only
  split <;> rename_i outcome <;> rw [outcome] at word
  · exact (word.mono (Nat.le_refl _) (fetchFails_abortFetch _)).of_same rfl rfl
  · split
    · exact (word.mono (Nat.le_refl _) (by simp)).of_same rfl rfl
    · exact (word.mono (Nat.le_refl _) (by simp)).of_same rfl rfl
    · exact word.followed (by simp) (exchanges_fetchExtension _ _ _)

/-! ## Execution -/

theorem exchanges_execute (machine : Machine (Recorded δ)) (pipeline : Pipeline) :
    Exchanges machine (machine.execute pipeline).machine (pipeline.ops.countP MicroOp.isStore)
      ((machine.execute pipeline).trap? = some .busError) :=
  (Datapath.exchanges_run { machine := machine, signals := .quiet } 0 pipeline.ops).mono
    (Nat.le_refl _) trap?_eq_some_iff.mpr

/-- The trap that an execution comes to is pending after it. -/
theorem contains_of_trap? {pipeline : Pipeline} {kind : TrapClass}
    (trapped : (machine.execute pipeline).trap? = some kind) :
    (machine.execute pipeline).machine.traps.contains kind := by
  obtain ⟨index, ends⟩ := trap?_eq_some_iff.mp trapped
  obtain ⟨before, op, after, middle, -, -, -, -, final⟩ :=
    Datapath.run_trapped_iff.mp (Prod.ext ends rfl)
  have raised : (machine.execute pipeline).machine = (op.effect middle).commit.machine.raise kind :=
    final.symm
  simp [raised, raise]

/-- An instruction writes to the devices at most once. -/
theorem exchanges_perform (machine : Machine (Recorded δ)) (instruction : Instruction) :
    Exchanges machine (machine.perform instruction).2 1
      ((machine.perform instruction).2.traps.contains .busError) := by
  rcases instruction.exists_encode with ⟨pipeline, encoded, -⟩
  have program : pipeline.ops = instruction.program := Pipeline.ofOps_eq_ok_iff.mp encoded
  have storesOnce := instruction.commits_last.countP_isStore_le
  rw [← program] at storesOnce
  rw [perform_of_encode encoded]
  exact (machine.exchanges_execute pipeline).mono storesOnce contains_of_trap?

theorem exchanges_fetchAndPerform (machine : Machine (Recorded δ)) :
    Exchanges machine machine.fetchAndPerform.2 1
      (machine.fetchAndPerform.2.traps.contains .busError) := by
  have fetches := machine.exchanges_fetch
  unfold fetchAndPerform
  split <;> rename_i outcome <;> rw [outcome] at fetches
  · exact fetches.followed (by simp [FetchFails]) (exchanges_perform _ _)
  · exact fetches.mono (Nat.zero_le _) And.right
  · exact fetches.mono (Nat.zero_le _) And.right

/-! ## Service -/

/-- `result` is `answer`, or else the machine has stopped for good since a handler
could not be entered. -/
def StopsUnless {α : Type} (answer : α) : Except MachineError α → Prop
  | .ok found => found = answer
  | .error error => ∃ vector, error = .doubleFault vector

theorem exchanges_tryEntry (machine : Machine (Recorded δ)) (vector : Word) :
    Exchanges machine (machine.tryEntry vector).2 2
      ((machine.tryEntry vector).1 = .ok (some .busError)) := by
  have twoStores : (entryProgram vector).countP MicroOp.isStore = 2 := rfl
  have entry := machine.exchanges_execute (entryPipeline vector)
  change Exchanges _ _ ((entryProgram vector).countP MicroOp.isStore) _ at entry
  rw [twoStores] at entry
  cases outcome : (machine.execute (entryPipeline vector)).trap? with
  | none =>
      rw [outcome] at entry
      rw [tryEntry_of_entered outcome]
      exact entry.mono (Nat.le_refl _) (by simp)
  | some kind =>
      rw [outcome] at entry
      rw [tryEntry_of_trapped outcome]
      refine (entry.mono (Nat.le_refl _) ?_).of_same rfl rfl
      intro isBusError
      rw [isBusError]

/-- A try comes to an end, well or with a trap. -/
theorem tryEntry_ne_error (machine : Machine (Recorded δ)) (vector : Word) (error : MachineError) :
    (machine.tryEntry vector).1 ≠ .error error := by
  cases outcome : (machine.execute (entryPipeline vector)).trap? with
  | none => simp [tryEntry_of_entered outcome]
  | some kind => simp [tryEntry_of_trapped outcome]

theorem exchanges_enter (acknowledged : Acknowledged (Recorded δ)) :
    Exchanges acknowledged.machine (enter acknowledged).2 4
      (StopsUnless 0o4 (enter acknowledged).1) := by
  rcases acknowledged with ⟨vector, retriable, interrupted⟩
  have first := interrupted.exchanges_tryEntry vector
  have ends := interrupted.tryEntry_ne_error vector
  unfold enter
  dsimp only
  split <;> rename_i outcome <;> rw [outcome] at first ends
  · exact absurd rfl (ends _)
  · exact first.mono (by decide) (by simp)
  · rename_i failed
    split
    · have restarted : Exchanges interrupted
          (({ failed with psw := interrupted.psw }.setPc interrupted.pc).setStackPointer .kernel
            emergencyStack) 2 True := (first.mono (Nat.le_refl _) fun _ => trivial).of_same rfl rfl
      generalize ({ failed with psw := interrupted.psw }.setPc interrupted.pc).setStackPointer
        .kernel emergencyStack = restart at restarted ⊢
      have both := restarted.trans (restart.exchanges_tryEntry emergencyVector)
      have secondEnds := restart.tryEntry_ne_error emergencyVector
      split <;> rename_i secondOutcome <;> rw [secondOutcome] at both secondEnds
      · exact absurd rfl (secondEnds _)
      · exact both.mono (Nat.le_refl _) fun _ => rfl
      · exact (both.mono (Nat.le_refl _) fun _ => ⟨vector, rfl⟩).of_same rfl rfl
    · exact (first.mono (by decide) fun _ => ⟨vector, rfl⟩).of_same rfl rfl

theorem exchanges_service (machine : Machine (Recorded δ)) :
    Exchanges machine machine.service.2 4 (StopsUnless (some 0o4) machine.service.1) := by
  unfold service
  split
  · exact .refl machine
  · rename_i acknowledged chosen
    have chooses : Exchanges machine acknowledged.machine 0 False := by
      rcases acknowledge?_cases chosen with
        ⟨-, traps, rfl⟩ | ⟨-, kind, traps, -, rfl⟩ | ⟨-, line, requests, runState, rfl⟩ <;>
        exact .silent rfl rfl
    refine (chooses.followed id (exchanges_enter acknowledged)).mono (Nat.le_refl _) ?_
    intro fails
    dsimp only
    cases result : (enter acknowledged).1 with
    | error error =>
        rw [result] at fails
        exact fails
    | ok vector =>
        rw [result] at fails
        exact congrArg some fails

omit [Bus δ] in
/-- Before a bus error only an odd address is served, which has the same vector. -/
theorem vector_of_busError {kind : TrapClass} (pending : machine.traps.contains .busError)
    (first : machine.traps.first? = some kind) : kind.vector = 0o4 := by
  have leads := (TrapSet.isFirst_of_first? first).rank_le .busError pending
  cases kind <;> first | rfl | contradiction

/-- A bus error that is pending is served, and not tried twice. -/
theorem service_of_busError (pending : machine.traps.contains .busError) :
    StopsUnless (some 0o4) machine.service.1 := by
  cases first : machine.traps.first? with
  | none =>
      have empty := TrapSet.any_eq_false_iff.mp (TrapSet.first?_eq_none_iff.mp first) .busError
      rw [pending] at empty
      contradiction
  | some kind =>
      rcases acknowledge?_of_first? first with ⟨acknowledged, chosen, vector, -, -⟩
      have once : ¬ machine.MayRetry := by
        intro may
        rw [contains_abort_of_mayRetry may rfl] at pending
        contradiction
      cases outcome :
          (acknowledged.machine.execute (entryPipeline acknowledged.vector)).trap? with
      | none =>
          rw [service_of_entered chosen outcome, vector, vector_of_busError pending first]
          rfl
      | some failed =>
          rw [((service_of_failed chosen outcome).2 (.inl once)).1]
          exact ⟨_, rfl⟩

/-! ## Steps -/

theorem stopsUnless_finish (served : StopsUnless (some 0o4) machine.service.1) :
    StopsUnless (.trapped 0o4) machine.finish.1 := by
  unfold finish
  split <;> rename_i outcome <;> rw [outcome] at served
  · exact served
  · exact congrArg StepResult.trapped (Option.some.inj served)
  · contradiction

theorem exchanges_finish (machine : Machine (Recorded δ)) :
    Exchanges machine machine.finish.2 4 (StopsUnless (.trapped 0o4) machine.finish.1) := by
  have served := machine.exchanges_service.mono (Nat.le_refl _) stopsUnless_finish
  have same : machine.finish.2.devices = machine.service.2.devices ∧
      machine.finish.2.mmu = machine.service.2.mmu := by
    unfold finish
    split <;> rename_i outcome <;> rw [outcome] <;> exact ⟨rfl, rfl⟩
  exact served.of_same same.1 (congrArg Mmu.model same.2)

/-- Polling and getting ready for an instruction make no other call. -/
theorem exchanges_beforeService (machine : Machine (Recorded δ)) :
    Exchanges machine.poll machine.beforeService 1
      (machine.beforeService.traps.contains .busError) := by
  have ready : Exchanges machine.poll machine.poll.startInstruction 0 False := by
    refine .silent rfl ?_
    simp only [startInstruction, Mmu.startInstruction]
    split <;> rfl
  have performs := ready.followed id (exchanges_fetchAndPerform _)
  unfold beforeService
  dsimp only
  split <;> rename_i outcome <;> rw [outcome] at performs
  · exact performs
  · unfold traceAfter
    split
    · refine (performs.mono (Nat.le_refl _) ?_).of_same rfl rfl
      intro pending
      simpa [raise] using pending
    · exact performs

/-- A machine that waits polls, and may then enter the handler of an interrupt. -/
theorem exchanges_await (machine : Machine (Recorded δ)) :
    Exchanges machine.poll machine.await.2 4 (StopsUnless (.trapped 0o4) machine.await.1) := by
  unfold await
  dsimp only
  split
  · exact machine.poll.exchanges_finish
  · exact .refl machine.poll

theorem calls_poll (machine : Machine (Recorded δ)) :
    machine.poll.devices.calls = machine.devices.calls ++ [BusCall.poll] := by
  change machine.devices.calls.push .poll = _
  simp

theorem model_step (machine : Machine (Recorded δ)) :
    machine.step.2.mmu.model = machine.mmu.model := by
  cases runState : machine.runState with
  | fatal error => simp only [step, runState]
  | halted => simp only [step, runState]
  | waiting =>
      rcases machine.exchanges_await with ⟨calls, exchange⟩
      simp only [step, runState]
      exact exchange.model
  | running =>
      rcases machine.exchanges_beforeService with ⟨calls, exchange⟩
      rcases machine.beforeService.exchanges_finish with ⟨entryCalls, entryExchange⟩
      rw [step_eq_finish runState]
      exact entryExchange.model.trans exchange.model

/-- What devices of a machine of `model` can rely on in a step of `machine`. -/
structure KeepsContract (machine : Machine (Recorded δ)) (model : Model) : Prop where
  stopped : machine.runState ≠ .running → machine.runState ≠ .waiting →
    machine.step.2.devices = machine.devices
  waiting : machine.runState = .waiting → ∃ calls : List BusCall,
    machine.step.2.devices.calls = machine.devices.calls ++ BusCall.poll :: calls ∧
    (∀ call ∈ calls, call.Proper model) ∧
    ∀ call ∈ calls, call.failed → StopsUnless (.trapped 0o4) machine.step.1
  running : machine.runState = .running → ∃ calls entryCalls : List BusCall,
    machine.step = machine.beforeService.finish ∧
    machine.beforeService.devices.calls = machine.devices.calls ++ BusCall.poll :: calls ∧
    machine.step.2.devices.calls = machine.beforeService.devices.calls ++ entryCalls ∧
    (∀ call ∈ calls ++ entryCalls, call.Proper model) ∧
    calls.countP BusCall.isWrite ≤ 1 ∧
    (∀ call ∈ calls, call.failed → machine.beforeService.traps.contains .busError) ∧
    ∀ call ∈ calls ++ entryCalls, call.failed → StopsUnless (.trapped 0o4) machine.step.1

theorem keepsContract (machine : Machine (Recorded δ)) :
    machine.KeepsContract machine.mmu.model := by
  constructor
  · intro notRunning notWaiting
    cases runState : machine.runState with
    | fatal error => simp only [step, runState]
    | halted => simp only [step, runState]
    | waiting => contradiction
    | running => contradiction
  · intro waiting
    rcases machine.exchanges_await with ⟨calls, exchange⟩
    have awaits : machine.step = machine.await := by
      rw [step, waiting]
    rw [awaits]
    refine ⟨calls, ?_, exchange.proper, exchange.failure⟩
    rw [exchange.appended, calls_poll, record_append]
    rfl
  · intro running
    rcases machine.exchanges_beforeService with ⟨calls, exchange⟩
    rcases machine.beforeService.exchanges_finish with ⟨entryCalls, entryExchange⟩
    have finishes := step_eq_finish running
    refine ⟨calls, entryCalls, finishes, ?_, ?_, ?_, exchange.writes, exchange.failure, ?_⟩
    · rw [exchange.appended, calls_poll, record_append]
      rfl
    · rw [finishes]
      exact entryExchange.appended
    · have entryProper := entryExchange.proper
      rw [exchange.model] at entryProper
      exact List.forall_mem_append.mpr ⟨exchange.proper, entryProper⟩
    · rw [finishes]
      intro call callMem failed
      rcases List.mem_append.mp callMem with before | after
      · exact stopsUnless_finish (service_of_busError (exchange.failure call before failed))
      · exact entryExchange.failure call after failed

/-- A step adds polls and proper calls to the record, and nothing else. -/
theorem KeepsContract.exists_calls {model : Model} (keeps : machine.KeepsContract model) :
    ∃ calls : List BusCall, machine.step.2.devices.calls = machine.devices.calls ++ calls ∧
      ∀ call ∈ calls, call = .poll ∨ call.Proper model := by
  have pollFirst {calls : List BusCall} (proper : ∀ call ∈ calls, call.Proper model) :
      ∀ call ∈ BusCall.poll :: calls, call = .poll ∨ call.Proper model :=
    List.forall_mem_cons.mpr ⟨.inl rfl, fun call callMem => .inr (proper call callMem)⟩
  cases runState : machine.runState with
  | fatal error =>
      rw [keeps.stopped (by simp [runState]) (by simp [runState])]
      exact ⟨[], by simp⟩
  | halted =>
      rw [keeps.stopped (by simp [runState]) (by simp [runState])]
      exact ⟨[], by simp⟩
  | waiting =>
      rcases keeps.waiting runState with ⟨calls, appended, proper, -⟩
      exact ⟨_, appended, pollFirst proper⟩
  | running =>
      rcases keeps.running runState with ⟨calls, entryCalls, -, before, after, proper, -⟩
      refine ⟨.poll :: (calls ++ entryCalls), ?_, pollFirst proper⟩
      rw [after, before, record_append]
      rfl

theorem model_afterSteps (machine : Machine (Recorded δ)) (count : Nat) :
    (machine.afterSteps count).mmu.model = machine.mmu.model := by
  induction count with
  | zero => rfl
  | succ count ih => exact (model_step _).trans ih

/-- Whatever a machine and its devices are, in every step from there the devices get
what they can rely on. -/
theorem keepsContract_afterSteps (machine : Machine (Recorded δ)) (count : Nat) :
    (machine.afterSteps count).KeepsContract machine.mmu.model ∧
      ∃ calls : List BusCall,
        (machine.afterSteps count).devices.calls = machine.devices.calls ++ calls ∧
        ∀ call ∈ calls, call = .poll ∨ call.Proper machine.mmu.model := by
  have keeps (count : Nat) : (machine.afterSteps count).KeepsContract machine.mmu.model := by
    rw [← model_afterSteps machine count]
    exact keepsContract _
  refine ⟨keeps count, ?_⟩
  induction count with
  | zero => exact ⟨[], by simp [afterSteps]⟩
  | succ count ih =>
      rcases ih with ⟨calls, appended, proper⟩
      rcases (keeps count).exists_calls with ⟨more, added, moreProper⟩
      refine ⟨calls ++ more, ?_, List.forall_mem_append.mpr ⟨proper, moreProper⟩⟩
      rw [afterSteps, added, appended, record_append]

/-- `TST @#177560` with no devices on the bus and the handler of bus errors at 20. -/
def testsAbsentDevice : Machine (Recorded NoDevices) :=
  { ofConfig Config.default { devices := .none, calls := #[] } with
    registers := (RegisterFile.cleared.set .programCounter 8).set (.stackPointer .kernel) 24
    ram :=
      { bytes := #[0, 0, 0, 0, 0o20, 0, 0o340, 0, 0o337, 0o13, 0o160, 0o377, 0, 0, 0, 0, 0, 0, 0,
          0, 0, 0, 0, 0] } }

example :
    testsAbsentDevice.step.1 = .ok (.trapped 0o4) ∧
      testsAbsentDevice.step.2.devices.calls =
        #[.poll, .read 0o17777560 (.error .nonexistent)] := by
  constructor
  · rfl
  · rfl

end Machine

end Pdp11
