import Pdp11.Proofs.AccessModes
import Pdp11.Proofs.Atomicity
import Pdp11.Proofs.ProgramLength
import Pdp11.Proofs.UnitRegisters

/-!
# What a program outside kernel mode cannot do

Outside kernel mode an instruction cannot stop the machine, reset the bus or
the relocation unit, or change the priority. Unless it stores to the status
word among the device registers, the fields that name the modes and the
register set can only gain bits, and no mode gains enough to become kernel.
-/

namespace Pdp11

universe u

/-! ## Status words -/

namespace Mode

theorem getLsbD_join (first second : Mode) (position : Nat) :
    (first.join second).code.getLsbD position =
      (first.code.getLsbD position || second.code.getLsbD position) := by
  simp [join]

end Mode

namespace Psw

/-- The mode and register set fields of `after` have every bit that they have
in `before`, and the priority is the same. -/
structure Retained (before after : Psw) : Prop where
  mode (position : Nat) : before.mode.code.getLsbD position → after.mode.code.getLsbD position
  previousMode (position : Nat) :
    before.previousMode.code.getLsbD position → after.previousMode.code.getLsbD position
  alternateSet : before.alternateSet → after.alternateSet
  priority : after.priority = before.priority

namespace Retained

variable {first second third : Psw}

theorem refl (psw : Psw) : Retained psw psw where
  mode _ := id
  previousMode _ := id
  alternateSet := id
  priority := rfl

theorem trans (head : Retained first second) (tail : Retained second third) :
    Retained first third where
  mode position set := tail.mode position (head.mode position set)
  previousMode position set := tail.previousMode position (head.previousMode position set)
  alternateSet set := tail.alternateSet (head.alternateSet set)
  priority := tail.priority.trans head.priority

/-- Kernel mode has no bit, and every other mode has one to keep. -/
theorem ne_kernel (retained : Retained first second) (outside : first.mode ≠ .kernel) :
    second.mode ≠ .kernel := by
  intro kernel
  have kept := retained.mode
  rw [kernel] at kept
  cases mode : first.mode
  case kernel => exact outside mode
  case supervisor | user =>
    rw [mode] at kept
    exact absurd (kept 0 rfl) (by decide)
  case undefined =>
    rw [mode] at kept
    exact absurd (kept 1 rfl) (by decide)

theorem getLsbD_bits (retained : Retained first second) {position : Nat} (field : 11 ≤ position)
    (set : first.bits.getLsbD position) : second.bits.getLsbD position := by
  rw [Psw.getLsbD_bits] at set ⊢
  rw [if_neg (by omega), if_neg (by omega), if_neg (by omega), if_neg (by omega),
    Bool.and_eq_true] at set ⊢
  refine ⟨set.1, ?_⟩
  have value := set.2
  split
  · rename_i isSet
    rw [if_pos isSet] at value
    exact retained.alternateSet value
  · rename_i notSet
    rw [if_neg notSet] at value
    split
    · rename_i isPrevious
      rw [if_pos isPrevious] at value
      exact retained.previousMode _ value
    · rename_i notPrevious
      rw [if_neg notPrevious] at value
      exact retained.mode _ value

end Retained

variable {psw : Psw}

/-- A return from interrupt outside kernel mode merges the modes. -/
theorem retained_returned (outside : psw.mode ≠ .kernel) (popped : Psw) :
    psw.Retained (psw.returned popped) := by
  rw [returned, if_neg outside]
  constructor
  · intro position set
    rw [Mode.getLsbD_join, set, Bool.true_or]
  · intro position set
    rw [Mode.getLsbD_join, set, Bool.true_or]
  · intro set
    rw [set, Bool.true_or]
  · rfl

theorem retained_moved (outside : psw.mode ≠ .kernel) (value : Psw) :
    psw.Retained (psw.moved value) := by
  rw [moved, if_neg outside]
  exact ⟨fun _ => id, fun _ => id, id, rfl⟩

end Psw

/-! ## Devices and the relocation unit -/

/-- `second` came from `first` by reads and writes alone. -/
inductive Addressed {δ : Type u} [Bus δ] : δ → δ → Prop
  | refl (devices : δ) : Addressed devices devices
  | read {first second : δ} (address : PhysicalAddress) :
      Addressed first second → Addressed first (Bus.read second address).2
  | write {first second : δ} (address : PhysicalAddress) (value : Word) (width : Width) :
      Addressed first second → Addressed first (Bus.write second address value width).2

namespace Addressed

variable {δ : Type u} [Bus δ]

theorem trans {first second third : δ} (head : Addressed first second)
    (tail : Addressed second third) : Addressed first third := by
  induction tail with
  | refl => exact head
  | read address _ ih => exact .read address ih
  | write address value width _ ih => exact .write address value width ih

theorem of_undisturbed {first second : δ} (undisturbed : Undisturbed first second) :
    Addressed first second := by
  induction undisturbed with
  | refl => exact .refl _
  | read address _ ih => exact .read address ih
  | refused _ _ ih => exact .write _ _ _ ih

/-- A recorded bus that was read and written shows no reset. -/
theorem calls {first second : Recorded δ} (addressed : Addressed first second) :
    ∃ calls : List BusCall, second.calls = first.calls ++ calls ∧ .reset ∉ calls := by
  induction addressed with
  | refl => exact ⟨[], by simp⟩
  | @read last address _ ih =>
      obtain ⟨calls, appended, noReset⟩ := ih
      exact ⟨calls ++ [_], Recorded.calls_record appended _ _, by simp [noReset]⟩
  | @write last address value width _ ih =>
      obtain ⟨calls, appended, noReset⟩ := ih
      exact ⟨calls ++ [_], Recorded.calls_record appended _ _, by simp [noReset]⟩

end Addressed

/-- `second` came from `first` by translations and notes of steps alone. -/
inductive Mmu.Used : Mmu → Mmu → Prop
  | refl (mmu : Mmu) : Used mmu mmu
  | translate {first second : Mmu} (mode : Mode) (cycle : MemoryCycle) (address : Word) :
      Used first second → Used first (second.translate mode cycle address).2
  | recordStep {first second : Mmu} (register : BitVec 3) (amount : Word) :
      Used first second → Used first (second.recordStep register amount)

theorem Mmu.Used.trans {first second third : Mmu} (head : Used first second)
    (tail : Used second third) : Used first third := by
  induction tail with
  | refl => exact head
  | translate mode cycle address _ ih => exact .translate mode cycle address ih
  | recordStep register amount _ ih => exact .recordStep register amount ih

/-- `second` came from `first` by translations, notes of steps and one write to
a register of the unit. -/
def Mmu.WrittenOnce (first second : Mmu) : Prop :=
  ∃ reached register value, Used first reached ∧
    Used (reached.writeRegister register value) second

/-! ## Accesses -/

variable {δ : Type u} [Bus δ]

namespace Machine

theorem used_read (machine : Machine δ) (mode : Mode) (cycle : MemoryCycle) (address : Word)
    (width : Width) : machine.mmu.Used (machine.read mode cycle address width).2.mmu := by
  rw [mmu_read]
  split
  · exact .refl _
  · exact .translate mode cycle address (.refl _)

/-- What a write does beside memory. -/
structure Wrote (before after : Machine δ) : Prop where
  psw : after.pswWritten ∨ after.psw = before.psw
  pswWritten : before.pswWritten → after.pswWritten
  runState : after.runState = before.runState
  requests : after.requests = before.requests
  devices : Addressed before.devices after.devices
  mmu : before.mmu.Used after.mmu ∨ before.mmu.WrittenOnce after.mmu

theorem Wrote.refl (machine : Machine δ) : Wrote machine machine where
  psw := .inr rfl
  pswWritten := id
  runState := rfl
  requests := rfl
  devices := .refl _
  mmu := .inl (.refl _)

/-- The access may have gone through the relocation unit first. -/
theorem Wrote.of_accessed {first second third : Machine δ} (accessed : Accessed first second)
    (used : first.mmu.Used second.mmu) (wrote : Wrote second third) : Wrote first third := by
  have rest := accessed.rest
  constructor
  · rw [← accessed.psw]
    exact wrote.psw
  · intro written
    apply wrote.pswWritten
    rw [rest]
    exact written
  · rw [← accessed.runState]
    exact wrote.runState
  · exact wrote.requests.trans accessed.requests
  · exact (Addressed.of_undisturbed accessed.devices).trans wrote.devices
  · rcases wrote.mmu with only | ⟨reached, register, value, before, after⟩
    · exact .inl (used.trans only)
    · exact .inr ⟨reached, register, value, used.trans before, after⟩

theorem wrote_writeIo (machine : Machine δ) (address : PhysicalAddress) (value : Word)
    (width : Width) : Wrote machine (machine.writeIo address value width).2 := by
  unfold writeIo
  split
  · unfold writeInternal
    dsimp only
    split
    · exact ⟨.inl rfl, fun _ => rfl, rfl, rfl, .refl _, .inl (.refl _)⟩
    · split
      · exact .refl machine
      · rename_i mmu written
        rw [Mmu.write?_eq] at written
        obtain ⟨register, -, rfl⟩ := Option.map_eq_some_iff.mp written
        exact ⟨.inr rfl, id, rfl, rfl, .refl _, .inr ⟨_, register, _, .refl _, .refl _⟩⟩
  · exact ⟨.inr rfl, id, rfl, rfl, .write _ _ _ (.refl _), .inl (.refl _)⟩

theorem wrote_writePhysical (machine : Machine δ) (address : PhysicalAddress) (value : Word)
    (width : Width) : Wrote machine (machine.writePhysical address value width).2 := by
  unfold writePhysical
  split
  · split
    · exact ⟨.inr rfl, id, rfl, rfl, .refl _, .inl (.refl _)⟩
    · exact .refl machine
  · exact machine.wrote_writeIo address value width
  · exact .refl machine

theorem wrote_write (machine : Machine δ) (mode : Mode) (address value : Word) (width : Width) :
    Wrote machine (machine.write mode address value width).2 := by
  have accessed := machine.accessed_translate mode .write address
  have used : machine.mmu.Used (machine.translate mode .write address).2.mmu :=
    machine.mmu_translate mode .write address ▸ .translate mode .write address (.refl _)
  unfold write
  split
  · exact .refl machine
  · split <;> rename_i outcome <;> rw [outcome] at accessed used
    · exact .of_accessed accessed used (.refl _)
    · exact .of_accessed accessed used (wrote_writePhysical _ _ _ _)

/-! ## Micro-operations -/

/-- What a program outside kernel mode keeps. -/
structure Contained (before after : Machine δ) : Prop where
  psw : before.psw.Retained after.psw
  runState : after.runState = before.runState
  requests : after.requests = before.requests
  devices : Addressed before.devices after.devices

theorem Contained.refl (machine : Machine δ) : Contained machine machine where
  psw := .refl _
  runState := rfl
  requests := rfl
  devices := .refl _

theorem Contained.trans {first second third : Machine δ} (head : Contained first second)
    (tail : Contained second third) : Contained first third where
  psw := head.psw.trans tail.psw
  runState := tail.runState.trans head.runState
  requests := tail.requests.trans head.requests
  devices := head.devices.trans tail.devices

theorem Wrote.contained {before after : Machine δ} (wrote : Wrote before after)
    (samePsw : after.psw = before.psw) : Contained before after where
  psw := samePsw ▸ .refl _
  runState := wrote.runState
  requests := wrote.requests
  devices := wrote.devices

/-- Register writes are free to a program. -/
theorem Contained.commit {before : Machine δ} {effect : Effect δ}
    (contained : before.Contained effect.datapath.machine) :
    before.Contained effect.commit.machine :=
  ⟨contained.psw, contained.runState, contained.requests, contained.devices⟩

end Machine

namespace MicroOp

/-- Apart from stores, which see to the status word themselves, what runs outside
kernel mode keeps what a program must keep. -/
theorem contained_effect {op : MicroOp} {datapath : Datapath δ} (notStore : op.isStore = false)
    (unprivileged : op.actsForKernel = false) (outside : datapath.machine.psw.mode ≠ .kernel) :
    datapath.machine.Contained (op.effect datapath).datapath.machine ∧
      datapath.machine.mmu.Used (op.effect datapath).datapath.machine.mmu := by
  have notKernel : datapath.machine.inKernel = false := decide_eq_false outside
  cases op
  case load dst address width space =>
    have accessed := datapath.machine.accessed_loadSelected (datapath.reg address) width space
    rw [machine_load]
    refine ⟨?_, datapath.machine.used_read _ (Machine.loadCycle space.space) _ _⟩
    exact ⟨accessed.psw ▸ .refl _, accessed.runState, accessed.requests,
      .of_undisturbed accessed.devices⟩
  case store => contradiction
  case halt | wait | reset | setPriority =>
    simp only [effect, notKernel, Bool.false_eq_true, if_false]
    exact ⟨.refl _, .refl _⟩
  case step reg amount =>
    refine ⟨⟨.refl _, rfl, rfl, .refl _⟩, ?_⟩
    simp only [effect]
    split
    · exact .recordStep _ _ (.refl _)
    · exact .refl _
  case loadPsw src rule =>
    cases rule with
    | ordinary => exact ⟨⟨Psw.retained_returned outside _, rfl, rfl, .refl _⟩, .refl _⟩
    | mtps => exact ⟨⟨Psw.retained_moved outside _, rfl, rfl, .refl _⟩, .refl _⟩
    | exception => contradiction
  case forceKernel => contradiction
  case conditionCodes =>
    exact ⟨⟨⟨fun _ => id, fun _ => id, id, rfl⟩, rfl, rfl, .refl _⟩, .refl _⟩
  case evalFlags =>
    simp only [effect]
    split
    · exact ⟨.refl _, .refl _⟩
    · exact ⟨⟨⟨fun _ => id, fun _ => id, id, rfl⟩, rfl, rfl, .refl _⟩, .refl _⟩
  case stackGuard =>
    simp only [effect, Machine.guardStack, notKernel, Bool.false_and, Bool.false_eq_true, if_false]
    exact ⟨.refl _, .refl _⟩
  case div high low divisor =>
    simp only [effect]
    split <;> exact ⟨.refl _, .refl _⟩
  all_goals exact ⟨⟨.refl _, rfl, rfl, .refl _⟩, .refl _⟩

theorem wrote_effect {op : MicroOp} (isStore : op.isStore) (datapath : Datapath δ) :
    datapath.machine.Wrote (op.effect datapath).datapath.machine := by
  cases op
  case store address src width space =>
    rw [machine_store]
    exact datapath.machine.wrote_write _ _ _ _
  all_goals contradiction

/-- Only a store can count as one to the status word. -/
theorem pswWritten_effect_of_not_store {op : MicroOp} (notStore : op.isStore = false)
    (datapath : Datapath δ) :
    (op.effect datapath).datapath.machine.pswWritten = datapath.machine.pswWritten := by
  cases op
  case load dst address width space =>
    rw [machine_load, (datapath.machine.accessed_loadSelected _ width space).rest]
  case store => contradiction
  case stackGuard =>
    simp only [effect, Machine.guardStack]
    split
    · rfl
    · split <;> rfl
  case halt | wait | reset | div | evalFlags | setPriority =>
    simp only [effect, Datapath.proceed]
    split <;> rfl
  all_goals rfl

/-- That the status word was written is not forgotten. -/
theorem pswWritten_effect (op : MicroOp) {datapath : Datapath δ}
    (written : datapath.machine.pswWritten) :
    (op.effect datapath).datapath.machine.pswWritten := by
  cases isStore : op.isStore with
  | false =>
      rw [pswWritten_effect_of_not_store isStore]
      exact written
  | true => exact (wrote_effect isStore datapath).pswWritten written

end MicroOp

/-! ## Runs -/

namespace Datapath

/-- Either the instruction has stored to the status word, or it has kept what a
program must keep; and a write to the relocation unit was the last thing in it
that could fail. -/
def Kept (before : Machine δ) (datapath : Datapath δ) (ops : List MicroOp) : Prop :=
  datapath.machine.pswWritten ∨
    before.Contained datapath.machine ∧
      (before.mmu.Used datapath.machine.mmu ∨
        before.mmu.WrittenOnce datapath.machine.mmu ∧ ∀ op ∈ ops, op.canRaise = false)

namespace Kept

variable {before : Machine δ} {datapath : Datapath δ} {op : MicroOp} {rest : List MicroOp}

theorem next (kept : Kept before datapath (op :: rest)) (outside : before.psw.mode ≠ .kernel)
    (unprivileged : op.actsForKernel = false) (order : CommitsLast (op :: rest)) :
    Kept before (op.effect datapath).commit rest := by
  rcases kept with written | ⟨contained, mmu⟩
  · exact .inl (op.pswWritten_effect written)
  cases isStore : op.isStore with
  | false =>
      have stillOutside := contained.psw.ne_kernel outside
      obtain ⟨here, used⟩ := MicroOp.contained_effect isStore unprivileged stillOutside
      refine .inr ⟨(contained.trans here).commit, ?_⟩
      rcases mmu with only | ⟨⟨reached, register, value, first, second⟩, settled⟩
      · exact .inl (only.trans used)
      · refine .inr ⟨⟨reached, register, value, first, second.trans used⟩, ?_⟩
        exact fun later laterMem => settled later (List.mem_cons_of_mem _ laterMem)
  | true =>
      have wrote := MicroOp.wrote_effect isStore datapath
      rcases wrote.psw with written | samePsw
      · exact .inl written
      · have committed : op.commits ∧ op.canRaise := by
          cases op <;> first | exact ⟨rfl, rfl⟩ | contradiction
        have settled : ∀ later ∈ rest, later.canRaise = false := by
          intro later laterMem
          exact (List.rel_of_pairwise_cons order laterMem).resolve_left (by simp [committed.1])
        have first : before.mmu.Used datapath.machine.mmu := by
          apply mmu.resolve_right
          rintro ⟨-, harmless⟩
          have raises := harmless op List.mem_cons_self
          rw [committed.2] at raises
          contradiction
        refine .inr ⟨(contained.trans (wrote.contained samePsw)).commit, ?_⟩
        rcases wrote.mmu with only | ⟨reached, register, value, earlier, later⟩
        · exact .inl (first.trans only)
        · exact .inr ⟨⟨reached, register, value, first.trans earlier, later⟩, settled⟩

theorem finish {ops : List MicroOp} (kept : Kept before datapath ops)
    (unwritten : datapath.machine.pswWritten = false) :
    before.Contained datapath.machine ∧
      (before.mmu.Used datapath.machine.mmu ∨ before.mmu.WrittenOnce datapath.machine.mmu) := by
  rcases kept with written | ⟨contained, mmu⟩
  · rw [unwritten] at written
    contradiction
  · exact ⟨contained, mmu.imp_right And.left⟩

/-- A run keeps what each of its micro-operations keeps. -/
theorem run {ops : List MicroOp} (kept : Kept before datapath ops)
    (outside : before.psw.mode ≠ .kernel) (unprivileged : Unprivileged ops)
    (order : CommitsLast ops) (index : Nat)
    (unwritten : (datapath.run index ops).2.pswWritten = false) :
    before.Contained (datapath.run index ops).2 ∧
      (before.mmu.Used (datapath.run index ops).2.mmu ∨
        before.mmu.WrittenOnce (datapath.run index ops).2.mmu) := by
  induction ops generalizing datapath index with
  | nil => exact kept.finish unwritten
  | cons op rest ih =>
      obtain ⟨opUnprivileged, restUnprivileged⟩ := Unprivileged.cons_iff.mp unprivileged
      have next := kept.next outside opUnprivileged order
      rw [run_cons] at unwritten ⊢
      split <;> rename_i disposition <;> rw [disposition] at unwritten
      · exact ih next restUnprivileged order.of_cons _ unwritten
      · exact next.finish unwritten
      · obtain ⟨contained, mmu⟩ := next.finish unwritten
        exact ⟨⟨contained.psw, contained.runState, contained.requests, contained.devices⟩, mmu⟩

end Kept

end Datapath

namespace Machine

end Machine

end Pdp11
