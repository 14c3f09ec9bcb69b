import Pdp11.Proofs.EntryFrame
import Pdp11.Proofs.PendingTraps

/-!
# Which exception is served

A pending trap goes before any request. What is served is dropped; everything
else stays pending, but for the trace trap, which a trap drops along with
itself. The tries to enter the handler can only add a memory management trap.
-/

namespace Pdp11

universe u

/-! ## The choice -/

variable {δ : Type u}

namespace Machine

variable {machine : Machine δ}

/-- A trap that is chosen takes the trace trap along. -/
theorem acknowledge?_of_first? {kind : TrapClass} (first : machine.traps.first? = some kind) :
    ∃ acknowledged, machine.acknowledge? = some acknowledged ∧
      acknowledged.vector = kind.vector ∧
      acknowledged.machine.traps = machine.traps.served kind ∧
      machine.SameControl acknowledged.machine := by
  have rest : (if kind = .trace then machine.traps.erase kind
      else (machine.traps.erase kind).erase .trace) =
        { machine.traps.served kind with redZone := machine.traps.redZone } := by
    apply TrapSet.eq_of_contains
    · intro other
      change _ = (machine.traps.served kind).contains other
      split
      · rename_i isTrace
        simp [isTrace]
      · simp
    · split <;> rfl
  unfold acknowledge? acknowledgeTrap? TrapSet.takeFirst?
  rw [first]
  dsimp only [Option.map_some]
  rw [rest]
  split
  · rename_i overflow
    rcases overflow with ⟨rfl, -⟩
    refine ⟨_, rfl, rfl, ?_, ⟨rfl, rfl⟩⟩
    apply TrapSet.eq_of_contains
    · intro other
      rfl
    · simp [setStackPointer]
  · rename_i notOverflow
    refine ⟨_, rfl, rfl, ?_, ⟨rfl, rfl⟩⟩
    apply TrapSet.eq_of_contains
    · intro other
      rfl
    · cases kept : machine.traps.redZone with
      | false => simp [kept]
      | true => simpa [kept] using notOverflow

theorem acknowledge?_of_strongestAbove? {line : InterruptLine}
    (untrapped : machine.traps.first? = none)
    (found : machine.requests.strongestAbove? machine.psw.priority.toNat = some line) :
    ∃ acknowledged, machine.acknowledge? = some acknowledged ∧
      acknowledged.vector = line.vector ∧
      acknowledged.machine.traps = machine.traps ∧
      acknowledged.machine.requests = machine.requests.erase line ∧
      acknowledged.machine.runState =
        if machine.runState = .waiting then .running else machine.runState := by
  unfold acknowledge? acknowledgeTrap? TrapSet.takeFirst? acknowledgeInterrupt?
  rw [untrapped, found]
  exact ⟨_, rfl, rfl, rfl, rfl, rfl⟩

theorem acknowledge?_eq_none_iff :
    machine.acknowledge? = none ↔ machine.traps.first? = none ∧
      machine.requests.strongestAbove? machine.psw.priority.toNat = none := by
  unfold acknowledge? acknowledgeTrap? TrapSet.takeFirst? acknowledgeInterrupt?
  rw [Option.orElse_eq_orElse, Option.orElse_eq_or, Option.or_eq_none_iff]
  simp only [Option.map_eq_none_iff]

/-- Nothing becomes pending by being chosen. -/
theorem contains_of_acknowledge? {acknowledged : Acknowledged δ} {kind : TrapClass}
    (chosen : machine.acknowledge? = some acknowledged)
    (contained : acknowledged.machine.traps.contains kind) : machine.traps.contains kind := by
  cases first : machine.traps.first? with
  | some served =>
      rcases acknowledge?_of_first? first with ⟨_, isChosen, -, traps, -⟩
      cases isChosen.symm.trans chosen
      simp only [traps, TrapSet.contains_served, Bool.and_eq_true] at contained
      exact contained.1.1
  | none =>
      cases strongest : machine.requests.strongestAbove? machine.psw.priority.toNat with
      | some line =>
          rcases acknowledge?_of_strongestAbove? first strongest with ⟨_, isChosen, -, traps, -⟩
          cases isChosen.symm.trans chosen
          rw [← traps]
          exact contained
      | none =>
          rw [acknowledge?_eq_none_iff.mpr ⟨first, strongest⟩] at chosen
          contradiction

theorem sameControl_retrying (failed interrupted : Machine δ) (kind : TrapClass) :
    SameControl failed (failed.retrying interrupted kind) :=
  ⟨rfl, rfl⟩

/-- While an abort is pending, one is served, and not tried twice. -/
theorem contains_abort_of_mayRetry {kind : TrapClass} (may : machine.MayRetry)
    (isAbort : kind.isAbort) : machine.traps.contains kind = false := by
  apply Bool.eq_false_iff.mpr
  intro pending
  cases first : machine.traps.first? with
  | none =>
      have empty := TrapSet.any_eq_false_iff.mp (TrapSet.first?_eq_none_iff.mp first) kind
      rw [pending] at empty
      contradiction
  | some served =>
      have leads := (TrapSet.isFirst_of_first? first).rank_le kind pending
      have servedIsAbort : served.isAbort :=
        TrapClass.isAbort_iff.mpr (Fin.le_trans leads (TrapClass.isAbort_iff.mp isAbort))
      rw [may.2 served first] at servedIsAbort
      contradiction

/-! ## Entry -/

variable [Bus δ]

theorem sameControl_entry (machine : Machine δ) (vector : Word) :
    SameControl machine (machine.execute (entryPipeline vector)).machine := by
  have uncontrolled : ∀ op ∈ entryProgram vector, op.controls = false := by
    simp [entryProgram, MicroOp.controls]
  exact Datapath.sameControl_run { machine := machine, signals := .quiet } 0 uncontrolled

theorem sameControl_tryEntry (machine : Machine δ) (vector : Word) :
    SameControl machine (machine.tryEntry vector).2 := by
  have same := machine.sameControl_entry vector
  cases outcome : (machine.execute (entryPipeline vector)).trap? with
  | none =>
      rw [tryEntry_of_entered outcome]
      exact same
  | some kind =>
      rw [tryEntry_of_trapped outcome]
      exact ⟨same.runState, same.requests⟩

/-- The first try to enter the handler meets a trap. -/
def retries (machine : Machine δ) : Bool :=
  match machine.acknowledge? with
  | none => false
  | some acknowledged =>
    (acknowledged.machine.execute (entryPipeline acknowledged.vector)).trap?.isSome

/-- Some access of the tries to enter the handler asks for a memory management
trap. -/
def serviceAsksTrap (machine : Machine δ) : Bool :=
  match machine.acknowledge? with
  | none => false
  | some acknowledged =>
    let first := acknowledged.machine.execute (entryPipeline acknowledged.vector)
    acknowledged.machine.entryAsksTrap acknowledged.vector ||
      match first.trap? with
      | none => false
      | some kind => (first.machine.retrying machine kind).entryAsksTrap emergencyVector

variable {acknowledged : Acknowledged δ} {after : Machine δ} {vector : Word}

theorem retries_of_acknowledge? (chosen : machine.acknowledge? = some acknowledged) :
    machine.retries =
      (acknowledged.machine.execute (entryPipeline acknowledged.vector)).trap?.isSome := by
  rw [retries, chosen]

theorem serviceAsksTrap_of_entered (chosen : machine.acknowledge? = some acknowledged)
    (entered : (acknowledged.machine.execute (entryPipeline acknowledged.vector)).trap? = none) :
    machine.serviceAsksTrap = acknowledged.machine.entryAsksTrap acknowledged.vector := by
  simp only [serviceAsksTrap, chosen, entered, Bool.or_false]

theorem serviceAsksTrap_of_trapped {kind : TrapClass}
    (chosen : machine.acknowledge? = some acknowledged)
    (trapped : (acknowledged.machine.execute (entryPipeline acknowledged.vector)).trap? =
      some kind) :
    machine.serviceAsksTrap =
      (acknowledged.machine.entryAsksTrap acknowledged.vector ||
        ((acknowledged.machine.execute
          (entryPipeline acknowledged.vector)).machine.retrying machine kind).entryAsksTrap
            emergencyVector) := by
  simp only [serviceAsksTrap, chosen, trapped]

/-- The abort of a first try was not pending before, so nothing is lost when it is
dropped for the second. -/
theorem traps_retrying {kind : TrapClass} (chosen : machine.acknowledge? = some acknowledged)
    (may : machine.MayRetry)
    (trapped : (acknowledged.machine.execute (entryPipeline acknowledged.vector)).trap? =
      some kind) :
    ((acknowledged.machine.execute
      (entryPipeline acknowledged.vector)).machine.retrying machine kind).traps =
      acknowledged.machine.traps.insertIf
        (acknowledged.machine.entryAsksTrap acknowledged.vector) .mmuTrap := by
  have isAbort := isAbort_of_entry trapped
  have absent : (acknowledged.machine.traps.insertIf
      (acknowledged.machine.entryAsksTrap acknowledged.vector) .mmuTrap).contains kind = false := by
    apply Bool.eq_false_iff.mpr
    intro contained
    simp only [TrapSet.contains_insertIf, Bool.or_eq_true, Bool.and_eq_true,
      decide_eq_true_eq] at contained
    rcases contained with earlier | ⟨-, rfl⟩
    · have pending := contains_of_acknowledge? chosen earlier
      rw [contains_abort_of_mayRetry may isAbort] at pending
      contradiction
    · contradiction
  change (acknowledged.machine.execute
    (entryPipeline acknowledged.vector)).machine.traps.erase kind = _
  rw [traps_entry_of_trapped trapped, TrapSet.erase_insert absent]

/-- Entry to a handler keeps what stayed pending and adds at most a memory
management trap. -/
theorem entered_of_service (chosen : machine.acknowledge? = some acknowledged)
    (served : machine.service = (.ok (some vector), after)) :
    vector = (if machine.retries then emergencyVector else acknowledged.vector) ∧
      after.traps = acknowledged.machine.traps.insertIf machine.serviceAsksTrap .mmuTrap ∧
      acknowledged.machine.SameControl after := by
  have retries := retries_of_acknowledge? chosen
  have first := sameControl_entry acknowledged.machine acknowledged.vector
  rcases service_cases chosen served with
    ⟨entered, rfl, rfl⟩ | ⟨kind, trapped, may, rfl, entered, rfl⟩
  · rw [entered] at retries
    rw [retries, serviceAsksTrap_of_entered chosen entered]
    exact ⟨rfl, traps_entry_of_entered entered, first⟩
  · rw [trapped] at retries
    rw [retries, serviceAsksTrap_of_trapped chosen trapped, traps_entry_of_entered entered,
      traps_retrying chosen may trapped, TrapSet.insertIf_insertIf]
    have retried := first.trans (sameControl_retrying _ machine kind)
    exact ⟨rfl, rfl, retried.trans (sameControl_entry _ _)⟩

/-- Whatever becomes of the tries, they neither raise nor drop a request. -/
theorem requests_enter (acknowledged : Acknowledged δ) :
    (enter acknowledged).2.requests = acknowledged.machine.requests := by
  have first := acknowledged.machine.sameControl_tryEntry acknowledged.vector
  unfold enter
  dsimp only
  split
  · rename_i outcome
    rw [outcome] at first
    exact first.requests
  · rename_i outcome
    rw [outcome] at first
    exact first.requests
  · rename_i kind failed outcome
    rw [outcome] at first
    split
    · have second := sameControl_tryEntry
        (({ failed with psw := acknowledged.machine.psw }.setPc
          acknowledged.machine.pc).setStackPointer .kernel emergencyStack) emergencyVector
      split <;> rename_i again <;> rw [again] at second <;>
        exact second.requests.trans first.requests
    · exact first.requests

theorem requests_service (chosen : machine.acknowledge? = some acknowledged) :
    machine.service.2.requests = acknowledged.machine.requests := by
  rw [service, chosen]
  exact requests_enter acknowledged

theorem exists_vector_of_service {answer : Option Word}
    (chosen : machine.acknowledge? = some acknowledged)
    (served : machine.service = (.ok answer, after)) : ∃ vector, answer = some vector := by
  rw [service, chosen] at served
  have result := congrArg Prod.fst served
  change (enter acknowledged).1.map some = .ok answer at result
  cases entered : (enter acknowledged).1 with
  | error error =>
      rw [entered] at result
      contradiction
  | ok vector =>
      rw [entered] at result
      cases result
      exact ⟨vector, rfl⟩

end Machine

end Pdp11
