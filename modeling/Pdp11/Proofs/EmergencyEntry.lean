import Pdp11.Proofs.HandlerReturn
import Pdp11.Proofs.PendingTraps

/-!
# When a handler cannot be entered

A try to enter a handler ends with the handler entered, or with an abort by one
of its accesses. In the second case one more try goes through the emergency
vector, on the emergency stack, unless it was an abort or an overflow into the
red zone that was to be served. If that try fails as well, the machine stops.
-/

namespace Pdp11

universe u

/-- The micro-operations that enter the handler at `vector`. -/
def entryPipeline (vector : Word) : Pipeline where
  ops := entryProgram vector
  length_le := by
    rw [entryProgram_length]
    decide

variable {δ : Type u}

namespace Execution

/-- The trap that the pipeline came to, if any. -/
def trap? (execution : Execution δ) : Option TrapClass :=
  match execution.result with
  | .ok (.trapped _ kind) => some kind
  | .ok .completed | .ok (.transferred _) | .error _ => none

end Execution

namespace Machine

/-- What is to be served leaves room for a second try. -/
def MayRetry (machine : Machine δ) : Prop :=
  ¬ machine.switchesStack ∧ ∀ kind, machine.traps.first? = some kind → kind.isAbort = false

/-- The machine `failed`, where a try to serve `interrupted` met the trap `kind`,
made ready for the second try. -/
def retrying (failed interrupted : Machine δ) (kind : TrapClass) : Machine δ :=
  { failed with
    psw := interrupted.psw
    traps := failed.traps.erase kind
    registers := (failed.registers.set .programCounter interrupted.pc).set (.stackPointer .kernel)
      emergencyStack }

end Machine

variable [Bus δ]

/-! ## How a run ends -/

namespace MicroOp

/-- An access that fails raises an abort. -/
theorem isAbort_of_raises {op : MicroOp} {datapath : Datapath δ} {kind : TrapClass}
    (accesses : op.isLoad ∨ op.isStore)
    (raises : (op.effect datapath).disposition = .raise kind) : kind.isAbort := by
  have isAbort (error : AccessError) : error.trapClass.isAbort := by
    cases error <;> rfl
  cases op
  case load | store =>
    simp only [effect] at raises
    split at raises
    · contradiction
    · cases raises
      exact isAbort _
  all_goals simp [isLoad, isStore] at accesses

end MicroOp

namespace Datapath

/-- Micro-operations post no more writes than are allowed, so a run comes to an
ending. -/
theorem exists_ending (datapath : Datapath δ) (index : Nat) (ops : List MicroOp) :
    ∃ ending, (datapath.run index ops).1 = .ok ending := by
  induction ops generalizing datapath index with
  | nil => exact ⟨_, rfl⟩
  | cons op rest ih =>
      rw [run_cons]
      split
      · exact ih _ _
      · exact ⟨_, rfl⟩
      · exact ⟨_, rfl⟩

end Datapath

namespace Machine

/-- Executions differ from runs in what they report alone. -/
theorem trap?_eq_none_iff {machine : Machine δ} {pipeline : Pipeline} :
    (machine.execute pipeline).trap? = none ↔ ∀ index kind,
      (Datapath.run { machine := machine, signals := .quiet } 0 pipeline.ops).1 ≠
        .ok (.trapped index kind) := by
  obtain ⟨ending, ends⟩ := Datapath.exists_ending { machine := machine, signals := .quiet } 0
    pipeline.ops
  simp only [Execution.trap?, execute, ends]
  cases ending <;> simp

theorem trap?_eq_some_iff {machine : Machine δ} {pipeline : Pipeline} {kind : TrapClass} :
    (machine.execute pipeline).trap? = some kind ↔ ∃ index,
      (Datapath.run { machine := machine, signals := .quiet } 0 pipeline.ops).1 =
        .ok (.trapped index kind) := by
  obtain ⟨ending, ends⟩ := Datapath.exists_ending { machine := machine, signals := .quiet } 0
    pipeline.ops
  simp only [Execution.trap?, execute, ends]
  cases ending <;> simp

/-! ## The tries -/

variable {machine : Machine δ} {vector : Word} {kind : TrapClass}

theorem tryEntry_of_entered
    (entered : (machine.execute (entryPipeline vector)).trap? = none) :
    machine.tryEntry vector = (.ok none, (machine.execute (entryPipeline vector)).machine) := by
  have built : Pipeline.ofOps (entryProgram vector) = .ok (entryPipeline vector) :=
    Pipeline.ofOps_eq_ok_iff.mpr rfl
  obtain ⟨ending, ends⟩ := Datapath.exists_ending { machine := machine, signals := .quiet } 0
    (entryPipeline vector).ops
  rw [tryEntry, built]
  simp only [Execution.trap?, execute, ends] at entered ⊢
  cases ending with
  | completed | transferred => rfl
  | trapped => contradiction

/-- A try that meets a trap drops it. -/
theorem tryEntry_of_trapped
    (trapped : (machine.execute (entryPipeline vector)).trap? = some kind) :
    machine.tryEntry vector =
      (.ok (some kind),
        { (machine.execute (entryPipeline vector)).machine with
          traps := (machine.execute (entryPipeline vector)).machine.traps.erase kind }) := by
  have built : Pipeline.ofOps (entryProgram vector) = .ok (entryPipeline vector) :=
    Pipeline.ofOps_eq_ok_iff.mpr rfl
  obtain ⟨index, ends⟩ := trap?_eq_some_iff.mp trapped
  rw [tryEntry, built]
  simp only [execute, ends]

/-- The traps that a try can meet are aborts of its accesses. -/
theorem isAbort_of_entry
    (trapped : (machine.execute (entryPipeline vector)).trap? = some kind) : kind.isAbort := by
  obtain ⟨index, ends⟩ := trap?_eq_some_iff.mp trapped
  obtain ⟨before, op, after, middle, program, -, -, raises, -⟩ :=
    Datapath.run_trapped_iff.mp (Prod.ext ends rfl)
  have opMem : op ∈ entryProgram vector := by
    change entryProgram vector = before ++ op :: after at program
    simp [program]
  have onlyAccesses : ∀ op ∈ entryProgram vector, op.canRaise → op.isLoad ∨ op.isStore := by
    simp [entryProgram, MicroOp.canRaise, MicroOp.isLoad, MicroOp.isStore]
  exact MicroOp.isAbort_of_raises
    (onlyAccesses op opMem (MicroOp.canRaise_of_raises raises)) raises

/-- A try to enter the handler at `vector` asks for a memory management trap. -/
def entryAsksTrap (machine : Machine δ) (vector : Word) : Bool :=
  Datapath.asksTrap { machine := machine, signals := .quiet } (entryProgram vector)

theorem unguarded_entryProgram (vector : Word) :
    ∀ op ∈ entryProgram vector, op ≠ .stackGuard := by
  simp [entryProgram]

theorem traps_entry_of_entered
    (entered : (machine.execute (entryPipeline vector)).trap? = none) :
    (machine.execute (entryPipeline vector)).machine.traps =
      machine.traps.insertIf (machine.entryAsksTrap vector) .mmuTrap :=
  (Datapath.traps_run (unguarded_entryProgram vector)).1 (trap?_eq_none_iff.mp entered)

theorem traps_entry_of_trapped
    (trapped : (machine.execute (entryPipeline vector)).trap? = some kind) :
    (machine.execute (entryPipeline vector)).machine.traps =
      (machine.traps.insertIf (machine.entryAsksTrap vector) .mmuTrap).insert kind := by
  obtain ⟨index, ends⟩ := trap?_eq_some_iff.mp trapped
  exact (Datapath.traps_run (unguarded_entryProgram vector)).2 index kind ends

/-- A handler is entered without an abort. -/
theorem contains_execute (isAbort : kind.isAbort)
    (entered : (machine.execute (entryPipeline vector)).trap? = none) :
    (machine.execute (entryPipeline vector)).machine.traps.contains kind =
      machine.traps.contains kind := by
  have differs : kind ≠ .mmuTrap := by
    rintro rfl
    contradiction
  rw [traps_entry_of_entered entered, TrapSet.contains_insertIf, decide_eq_false differs,
    Bool.and_false, Bool.or_false]

/-! ## Service -/

variable {acknowledged : Acknowledged δ}

omit [Bus δ] in
/-- Choosing an exception keeps the status word and every register but the
kernel stack pointer. -/
theorem acknowledge?_context (chosen : machine.acknowledge? = some acknowledged) :
    acknowledged.machine.psw = machine.psw ∧
      ∀ cell, cell ≠ .stackPointer .kernel →
        acknowledged.machine.registers.get cell = machine.registers.get cell := by
  rcases acknowledge?_cases chosen with
    ⟨-, traps, rfl⟩ | ⟨-, kind, traps, -, rfl⟩ | ⟨-, line, requests, runState, rfl⟩
  · refine ⟨rfl, ?_⟩
    intro cell other
    exact (RegisterFile.get_set _ _ _ _).trans (if_neg other.symm)
  · exact ⟨rfl, fun _ _ => rfl⟩
  · exact ⟨rfl, fun _ _ => rfl⟩

omit [Bus δ] in
theorem retriable_iff (chosen : machine.acknowledge? = some acknowledged) :
    acknowledged.retriable ↔ machine.MayRetry := by
  rcases acknowledge?_cases chosen with
    ⟨switches, traps, rfl⟩ | ⟨sameStack, kind, traps, first, rfl⟩ |
      ⟨noTrap, line, requests, runState, rfl⟩
  · simp [MayRetry, switches]
  · simp [MayRetry, sameStack, first]
  · simp [MayRetry, switchesStack, noTrap]

theorem service_of_entered (chosen : machine.acknowledge? = some acknowledged)
    (entered : (acknowledged.machine.execute (entryPipeline acknowledged.vector)).trap? = none) :
    machine.service = (.ok (some acknowledged.vector),
      (acknowledged.machine.execute (entryPipeline acknowledged.vector)).machine) := by
  have outcome := tryEntry_of_entered entered
  rw [service_of_tryEntry chosen (congrArg Prod.fst outcome), outcome]

omit [Bus δ] in
/-- The second try starts from the context that was interrupted. -/
theorem retrying_acknowledged (chosen : machine.acknowledge? = some acknowledged)
    (failed : Machine δ) (kind : TrapClass) :
    ({ { failed with traps := failed.traps.erase kind } with
        psw := acknowledged.machine.psw }.setPc acknowledged.machine.pc).setStackPointer .kernel
          emergencyStack =
      failed.retrying machine kind := by
  obtain ⟨psw, registers⟩ := acknowledge?_context chosen
  have pc : acknowledged.machine.pc = machine.pc := registers .programCounter (by simp)
  rw [psw, pc]
  rfl

theorem service_of_failed (chosen : machine.acknowledge? = some acknowledged)
    (failed : (acknowledged.machine.execute (entryPipeline acknowledged.vector)).trap? =
      some kind) :
    let first := acknowledged.machine.execute (entryPipeline acknowledged.vector)
    let second := (first.machine.retrying machine kind).execute (entryPipeline emergencyVector)
    (machine.MayRetry → second.trap? = none →
      machine.service = (.ok (some emergencyVector), second.machine)) ∧
    (¬ machine.MayRetry ∨ second.trap? ≠ none →
      machine.service.1 = .error (.doubleFault acknowledged.vector) ∧
        machine.service.2.runState = .fatal (.doubleFault acknowledged.vector)) := by
  intro first second
  have outcome := tryEntry_of_trapped failed
  rw [← retriable_iff chosen, service, chosen]
  dsimp only
  rw [enter]
  dsimp only
  rw [outcome]
  dsimp only
  cases acknowledged.retriable with
  | false =>
      refine ⟨fun may => absurd may (by simp), ?_⟩
      intro
      exact ⟨rfl, rfl⟩
  | true =>
      rw [if_pos rfl, retrying_acknowledged chosen]
      cases again : second.trap? with
      | none =>
          rw [tryEntry_of_entered again]
          refine ⟨fun _ _ => rfl, ?_⟩
          rintro (no | trapped)
          · exact absurd rfl no
          · exact absurd rfl trapped
      | some raised =>
          rw [tryEntry_of_trapped again]
          refine ⟨fun _ untrapped => absurd untrapped (by simp), ?_⟩
          intro
          exact ⟨rfl, rfl⟩

/-- On the emergency stack the words of the interrupted context end up at
addresses 2 and 0. -/
theorem emergencyStack_holds {restart interrupted : Machine δ}
    (pointer : restart.stackPointer .kernel = emergencyStack) (psw : restart.psw = interrupted.psw)
    (pc : restart.pc = interrupted.pc)
    (entered : (restart.execute (entryPipeline vector)).trap? = none)
    (statusInRam : restart.KernelInRam 2) (pcInRam : restart.KernelInRam 0) :
    let after := (restart.execute (entryPipeline vector)).machine
    after.stackPointer .kernel = 0 ∧ after.KernelHolds 2 interrupted.psw.bits ∧
      after.KernelHolds 0 interrupted.pc := by
  intro after
  have outcome := tryEntry_of_entered entered
  have first : restart.stackPointer .kernel - 2 = 2 := by
    rw [pointer]
    rfl
  have second : restart.stackPointer .kernel - 4 = 0 := by
    rw [pointer]
    rfl
  rw [← first] at statusInRam
  rw [← second] at pcInRam
  obtain ⟨start, status, -, -, reached⟩ := entered_of_tryEntry (congrArg Prod.fst outcome)
    statusInRam pcInRam
  rw [outcome] at reached
  have statusHeld := reached.statusHeld
  have pcHeld := reached.pcHeld
  rw [first, psw] at statusHeld
  rw [second, pc] at pcHeld
  exact ⟨reached.pointer.trans second, statusHeld, pcHeld⟩

/-- A handler is entered at the first try, or else the emergency handler at the
second, or the machine stops. The second try finds the interrupted context and
leaves nothing of the first; there is none for an abort or an overflow into the
red zone. -/
theorem service_of_acknowledge? (chosen : machine.acknowledge? = some acknowledged) :
    let first := acknowledged.machine.execute (entryPipeline acknowledged.vector)
    (first.trap? = none →
      machine.service = (.ok (some acknowledged.vector), first.machine)) ∧
    ∀ kind, first.trap? = some kind →
      let restart := first.machine.retrying machine kind
      let second := restart.execute (entryPipeline 0o4)
      (machine.MayRetry → second.trap? = none →
        machine.service = (.ok (some 0o4), second.machine) ∧
        second.machine.traps.contains kind = false ∧
        (restart.KernelInRam 2 → restart.KernelInRam 0 →
          second.machine.stackPointer .kernel = 0 ∧
          second.machine.KernelHolds 2 machine.psw.bits ∧
          second.machine.KernelHolds 0 machine.pc)) ∧
      (¬ machine.MayRetry ∨ second.trap? ≠ none →
        machine.service.1 = .error (.doubleFault acknowledged.vector) ∧
        machine.service.2.runState = .fatal (.doubleFault acknowledged.vector)) := by
  intro first
  refine ⟨service_of_entered chosen, ?_⟩
  intro kind failed restart second
  obtain ⟨retried, stopped⟩ := service_of_failed chosen failed
  refine ⟨?_, stopped⟩
  intro may entered
  refine ⟨retried may entered, ?_, ?_⟩
  · have dropped : restart.traps = first.machine.traps.erase kind := rfl
    rw [contains_execute (isAbort_of_entry failed) entered, dropped]
    simp
  · have pointer : restart.stackPointer .kernel = emergencyStack := by
      simp [restart, retrying, stackPointer]
    have pc : restart.pc = machine.pc := by
      simp [restart, retrying, Machine.pc]
    exact emergencyStack_holds pointer rfl pc entered

/-- A user program that an EMT has interrupted while the kernel stack pointer is
odd. -/
def oddKernelStack : Machine NoDevices :=
  { ofConfig Config.default .none with
    registers :=
      (RegisterFile.cleared.set .programCounter 0o2002).set (.stackPointer .kernel) 0o1001
    psw := .ofBits 0o140000
    ram :=
      { bytes := #[0, 0, 0, 0, 0, 10, 0o340, 0, 0, 0, 0, 0, 0, 0, 0, 0, 0, 0, 0, 0, 0, 0, 0, 0, 0,
          2, 0o340, 0] }
    traps := TrapSet.none.insert .emt }

/-- The EMT handler cannot be entered, so the emergency handler is, with the
context of the user program on the emergency stack. -/
theorem service_oddKernelStack :
    oddKernelStack.service.1 = .ok (some 0o4) ∧
      oddKernelStack.service.2.traps.contains .oddAddress = false ∧
      oddKernelStack.service.2.stackPointer .kernel = 0 ∧
      oddKernelStack.service.2.KernelHolds 2 0o140000 ∧
      oddKernelStack.service.2.KernelHolds 0 0o2002 := by
  have chosen : oddKernelStack.acknowledge? =
      some
        { vector := 0o30
          retriable := true
          machine := { oddKernelStack with traps := .none } } := rfl
  have may : oddKernelStack.MayRetry := by
    refine ⟨?_, ?_⟩
    · rintro ⟨-, inRedZone⟩
      contradiction
    · intro kind first
      have emt : oddKernelStack.traps.first? = some .emt := rfl
      cases emt.symm.trans first
      rfl
  obtain ⟨-, outcome⟩ := service_of_acknowledge? chosen
  obtain ⟨retried, -⟩ := outcome .oddAddress rfl
  obtain ⟨served, dropped, context⟩ := retried may rfl
  obtain ⟨pointer, status, pc⟩ := context ⟨2, rfl⟩ ⟨0, rfl⟩
  rw [served]
  exact ⟨rfl, dropped, pointer, status, pc⟩

end Machine

end Pdp11
