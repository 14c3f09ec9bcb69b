import Pdp11.Proofs.Containment
import Pdp11.Proofs.Selection

/-!
# What a run leaves pending

A page may let an access through and ask for a memory management trap. Apart
from the guard of the stack, and from the trap that ends the run, nothing else
becomes pending while micro-operations run, and nothing that was pending is
lost. What they do not halt, suspend or reset keeps its run state and its
interrupt requests.
-/

namespace Pdp11

universe u

/-! ## Sets of traps -/

namespace TrapSet

/-- `traps` with `kind` raised if it was asked for. -/
def insertIf (traps : TrapSet) (asked : Bool) (kind : TrapClass) : TrapSet :=
  if asked then traps.insert kind else traps

variable {traps : TrapSet} {kind : TrapClass}

@[simp]
theorem contains_insertIf (traps : TrapSet) (asked : Bool) (raised kind : TrapClass) :
    (traps.insertIf asked raised).contains kind =
      (traps.contains kind || (asked && decide (kind = raised))) := by
  cases asked <;> simp [insertIf]

@[simp]
theorem redZone_insertIf (traps : TrapSet) (asked : Bool) (kind : TrapClass) :
    (traps.insertIf asked kind).redZone = traps.redZone := by
  cases asked <;> rfl

theorem insertIf_insertIf (traps : TrapSet) (earlier later : Bool) (kind : TrapClass) :
    (traps.insertIf earlier kind).insertIf later kind = traps.insertIf (earlier || later) kind := by
  apply eq_of_contains
  · intro other
    simp only [contains_insertIf, Bool.or_assoc, Bool.and_or_distrib_right]
  · simp

/-- A class that was raised and dropped again leaves the set as it was. -/
theorem erase_insert (absent : traps.contains kind = false) :
    (traps.insert kind).erase kind = traps := by
  apply eq_of_contains
  · intro other
    by_cases same : other = kind
    · subst same
      simp [absent]
    · simp [same]
  · rfl

end TrapSet

variable {δ : Type u}

/-! ## Accesses that ask for a trap -/

namespace Mmu

/-- The access goes through, and the page asks for a trap. -/
def asksTrap (mmu : Mmu) (mode : Mode) (cycle : MemoryCycle) (address : Word) : Bool :=
  match (mmu.translate mode cycle address).1 with
  | .ok translation => translation.trap
  | .error _ => false

end Mmu

namespace Machine

/-- An access of `machine` asks for a memory management trap. -/
def asksTrap (machine : Machine δ) (mode : Mode) (cycle : MemoryCycle) (address : Word)
    (width : Width) : Bool :=
  !decide (width = .word ∧ isOdd address) && machine.mmu.asksTrap mode cycle address

theorem traps_translate (machine : Machine δ) (mode : Mode) (cycle : MemoryCycle)
    (address : Word) :
    (machine.translate mode cycle address).2.traps =
      machine.traps.insertIf (machine.mmu.asksTrap mode cycle address) .mmuTrap := by
  simp only [translate, Mmu.asksTrap]
  cases (machine.mmu.translate mode cycle address).1 with
  | error cause => rfl
  | ok translation => cases trap : translation.trap <;> simp [trap, TrapSet.insertIf, raise]

variable [Bus δ]

theorem traps_readPhysical (machine : Machine δ) (address : PhysicalAddress) (width : Width) :
    (machine.readPhysical address width).2.traps = machine.traps := by
  have io : (machine.readIoWord (wordAddress address)).2.traps = machine.traps := by
    unfold readIoWord
    split <;> rfl
  unfold readPhysical
  split
  · split <;> rfl
  · exact io
  · rfl

theorem traps_writePhysical (machine : Machine δ) (address : PhysicalAddress) (value : Word)
    (width : Width) : (machine.writePhysical address value width).2.traps = machine.traps := by
  obtain ⟨ram, psw, pswWritten, mmu, devices, rest⟩ :=
    machine.writePhysical_rest address value width
  rw [rest]

theorem traps_read (machine : Machine δ) (mode : Mode) (cycle : MemoryCycle) (address : Word)
    (width : Width) :
    (machine.read mode cycle address width).2.traps =
      machine.traps.insertIf (machine.asksTrap mode cycle address width) .mmuTrap := by
  have translated := machine.traps_translate mode cycle address
  unfold read asksTrap
  split
  · rename_i odd
    rw [decide_eq_true odd]
    rfl
  · rename_i even
    rw [decide_eq_false even]
    split <;> rename_i outcome <;> rw [outcome] at translated
    · exact translated
    · exact (traps_readPhysical _ _ _).trans translated

theorem traps_write (machine : Machine δ) (mode : Mode) (address value : Word) (width : Width) :
    (machine.write mode address value width).2.traps =
      machine.traps.insertIf (machine.asksTrap mode .write address width) .mmuTrap := by
  have translated := machine.traps_translate mode .write address
  unfold write asksTrap
  split
  · rename_i odd
    rw [decide_eq_true odd]
    rfl
  · rename_i even
    rw [decide_eq_false even]
    split <;> rename_i outcome <;> rw [outcome] at translated
    · exact translated
    · exact (traps_writePhysical _ _ _ _).trans translated

end Machine

variable [Bus δ]

namespace MicroOp

/-- The access of `op` asks for a memory management trap. -/
def asksTrap (op : MicroOp) (datapath : Datapath δ) : Bool :=
  let machine := datapath.machine
  match op with
  | load _ address width space =>
    machine.asksTrap (machine.selectedMode space.mode) (Machine.loadCycle space.space)
      (datapath.reg address) width
  | store address _ width space =>
    machine.asksTrap (machine.selectedMode space.mode) .write (datapath.reg address) width
  | _ => false

theorem traps_effect {op : MicroOp} (unguarded : op ≠ .stackGuard) (datapath : Datapath δ) :
    (op.effect datapath).datapath.machine.traps =
      datapath.machine.traps.insertIf (op.asksTrap datapath) .mmuTrap := by
  cases op
  case load dst address width space =>
    rw [machine_load]
    exact datapath.machine.traps_read _ (Machine.loadCycle space.space) _ _
  case store address src width space =>
    rw [machine_store]
    exact datapath.machine.traps_write _ _ _ _
  case stackGuard => exact absurd rfl unguarded
  case halt | wait | reset | div | evalFlags | setPriority =>
    simp only [effect, Datapath.proceed]
    split <;> rfl
  all_goals rfl

end MicroOp

namespace Datapath

/-- Some access of a run of `ops` asks for a memory management trap. -/
def asksTrap (datapath : Datapath δ) : List MicroOp → Bool
  | [] => false
  | op :: rest =>
    op.asksTrap datapath ||
      match (op.effect datapath).disposition with
      | .next => (op.effect datapath).commit.asksTrap rest
      | .flush | .raise _ => false

/-- A run raises the memory management trap if it is asked to, and the trap that
ends it. -/
theorem traps_run {datapath : Datapath δ} {index : Nat} {ops : List MicroOp}
    (unguarded : ∀ op ∈ ops, op ≠ .stackGuard) :
    let pending := datapath.machine.traps.insertIf (datapath.asksTrap ops) .mmuTrap
    ((∀ position kind, (datapath.run index ops).1 ≠ .ok (.trapped position kind)) →
      (datapath.run index ops).2.traps = pending) ∧
    (∀ position kind, (datapath.run index ops).1 = .ok (.trapped position kind) →
      (datapath.run index ops).2.traps = pending.insert kind) := by
  induction ops generalizing datapath index with
  | nil =>
      constructor
      · intro
        rfl
      · intro _ _ trapped
        cases trapped
  | cons op rest ih =>
      have first : (op.effect datapath).commit.machine.traps =
          datapath.machine.traps.insertIf (op.asksTrap datapath) .mmuTrap :=
        MicroOp.traps_effect (unguarded op List.mem_cons_self) datapath
      rw [run_cons, asksTrap]
      cases (op.effect datapath).disposition with
      | next =>
          have onward := @ih (op.effect datapath).commit (index + 1)
            fun later laterMem => unguarded later (List.mem_cons_of_mem _ laterMem)
          rw [first] at onward
          dsimp only at onward ⊢
          rw [TrapSet.insertIf_insertIf] at onward
          exact onward
      | flush =>
          dsimp only
          rw [Bool.or_false, first]
          constructor
          · intro
            rfl
          · intro _ _ trapped
            cases trapped
      | raise raised =>
          dsimp only
          rw [Bool.or_false]
          constructor
          · intro untrapped
            exact absurd rfl (untrapped _ _)
          · rintro position kind trapped
            cases trapped
            exact congrArg (TrapSet.insert · raised) first

end Datapath

/-! ## Run state and requests -/

namespace Machine

/-- The run state and the interrupt requests are as before. -/
structure SameControl (before after : Machine δ) : Prop where
  runState : after.runState = before.runState
  requests : after.requests = before.requests

omit [Bus δ] in
theorem SameControl.trans {first second third : Machine δ} (head : SameControl first second)
    (tail : SameControl second third) : SameControl first third where
  runState := tail.runState.trans head.runState
  requests := tail.requests.trans head.requests

theorem Accessed.sameControl {before after : Machine δ} (accessed : Accessed before after) :
    SameControl before after where
  runState := accessed.runState
  requests := accessed.requests

theorem Wrote.sameControl {before after : Machine δ} (wrote : Wrote before after) :
    SameControl before after where
  runState := wrote.runState
  requests := wrote.requests

end Machine

namespace MicroOp

/-- The micro-operation changes the run state or the requests. -/
def controls : MicroOp → Bool
  | halt | wait | reset => true
  | _ => false

theorem sameControl_effect {op : MicroOp} (uncontrolled : op.controls = false)
    (datapath : Datapath δ) :
    datapath.machine.SameControl (op.effect datapath).datapath.machine := by
  cases op
  case load dst address width space =>
    rw [machine_load]
    exact (datapath.machine.accessed_loadSelected (datapath.reg address) width space).sameControl
  case store address src width space =>
    rw [machine_store]
    exact (datapath.machine.wrote_write _ _ _ _).sameControl
  case stackGuard =>
    simp only [effect, Machine.guardStack]
    split
    · exact ⟨rfl, rfl⟩
    · split <;> exact ⟨rfl, rfl⟩
  case div | evalFlags | setPriority =>
    simp only [effect, Datapath.proceed]
    split <;> exact ⟨rfl, rfl⟩
  case halt | wait | reset => contradiction
  all_goals exact ⟨rfl, rfl⟩

end MicroOp

theorem Datapath.sameControl_run (datapath : Datapath δ) (index : Nat) {ops : List MicroOp}
    (uncontrolled : ∀ op ∈ ops, op.controls = false) :
    datapath.machine.SameControl (datapath.run index ops).2 := by
  apply run_preserves datapath.machine.SameControl
  · intro op opMem reached same
    have changed := MicroOp.sameControl_effect (uncontrolled op opMem) reached
    exact same.trans ⟨changed.runState, changed.requests⟩
  · intro op opMem reached kind raises machine same
    exact ⟨same.runState, same.requests⟩
  · exact ⟨rfl, rfl⟩

end Pdp11
