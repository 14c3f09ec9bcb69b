import Pdp11.Proofs.AccessModes
import Pdp11.Proofs.Atomicity
import Pdp11.Proofs.Isolation.Reach

/-!
# What an instruction can change in memory

Memory changes by stores alone. Until an instruction stores, it has changed
neither its modes nor its rights, and it stores through the pages of one of
its two modes; so every byte it changes was open to be written when it
started.
-/

namespace Pdp11

universe u

variable {δ : Type u} [Bus δ]

namespace Ram

/-- A write changes the byte it is for, or the two bytes of its word. -/
theorem eq_or_eq_of_write?_changes {ram written : Ram} {offset other : Nat} {value : Word}
    {width : Width} (write : ram.write? offset value width = some written)
    (changed : written.readByte? other ≠ ram.readByte? other) :
    other = (if width = .word then wordOffset offset else offset) ∨
      width = .word ∧ other = wordOffset offset + 1 := by
  cases width with
  | byte =>
      rw [readByte?_writeByte write] at changed
      by_cases same : offset = other
      · exact .inl same.symm
      · exact absurd (if_neg same) changed
  | word =>
      rw [readByte?_writeWord write] at changed
      by_cases high : wordOffset offset + 1 = other
      · exact .inr ⟨rfl, high.symm⟩
      · by_cases low : wordOffset offset = other
        · exact .inl low.symm
        · rw [if_neg high, if_neg low] at changed
          exact absurd rfl changed

end Ram

namespace Machine

/-- Devices and registers of the processor lie outside memory. -/
theorem ram_writeIo (machine : Machine δ) (address : PhysicalAddress) (value : Word)
    (width : Width) : (machine.writeIo address value width).2.ram = machine.ram := by
  unfold writeIo writeInternal
  split
  · dsimp only
    split
    · rfl
    · split <;> rfl
  · rfl

/-- The word of an even address starts where the address leads. -/
theorem wordOffset_of_destination {mmu : Mmu} {mode : Mode} {cycle : MemoryCycle} {address : Word}
    {size offset : Nat}
    (lands : Region.of (mmu.destination mode cycle address) size = .ram offset)
    (even : isOdd address = false) : Ram.wordOffset offset = offset := by
  have inBlock := Mmu.block_offset_destination lands
  have divides := toNat_mod_two_of_even even
  unfold Ram.wordOffset
  omega

/-- A byte that a write changes lies where the page that let the write through
leads. -/
theorem place_of_write_changes {machine : Machine δ} {mode : Mode} {address value : Word}
    {width : Width} {offset : Nat}
    (changed : (machine.write mode address value width).2.ram.readByte? offset ≠
      machine.ram.readByte? offset) :
    machine.mmu.Permits mode .write address ∧
      (offset = (machine.mmu.destination mode .write address).toNat ∨
        isOdd address = false ∧
          offset = (machine.mmu.destination mode .write address).toNat + 1) := by
  have accessed := machine.accessed_translate mode .write address
  unfold write at changed
  split at changed
  · exact absurd rfl changed
  · rename_i aligned
    split at changed
    · rename_i outcome
      rw [outcome] at accessed
      exact absurd (congrArg (Ram.readByte? · offset) accessed.ram) changed
    · rename_i physical translated outcome
      obtain ⟨permits, rfl⟩ := (translate_eq_ok_iff (by decide)).mp (congrArg Prod.fst outcome)
      rw [outcome] at accessed
      rw [← accessed.ram] at changed
      refine ⟨permits, ?_⟩
      unfold writePhysical at changed
      split at changed
      · rename_i place lands
        rw [Mmu.toNat_destination_of_ram lands]
        split at changed
        · rename_i ram written
          have wordStart (isWord : width = .word) :
              isOdd address = false ∧ Ram.wordOffset place = place := by
            have even : isOdd address = false :=
              Bool.eq_false_iff.mpr fun odd => aligned ⟨isWord, odd⟩
            exact ⟨even, wordOffset_of_destination lands even⟩
          rcases Ram.eq_or_eq_of_write?_changes written changed with first | ⟨isWord, second⟩
          · by_cases isWord : width = .word
            · rw [if_pos isWord, (wordStart isWord).2] at first
              exact .inl first
            · rw [if_neg isWord] at first
              exact .inl first
          · rw [(wordStart isWord).2] at second
            exact .inr ⟨(wordStart isWord).1, second⟩
        · exact absurd rfl changed
      · rw [ram_writeIo] at changed
        exact absurd rfl changed
      · exact absurd rfl changed

/-! ## Reach stays the same up to the first result -/

/-- What `current` can reach, `before` could reach. -/
structure SameReach (before current : Machine δ) : Prop where
  psw : current.psw = before.psw
  rights : before.mmu.SameRights current.mmu

omit [Bus δ] in
theorem SameReach.refl (machine : Machine δ) : SameReach machine machine where
  psw := rfl
  rights := .refl _

omit [Bus δ] in
/-- An access that uses the pages of the current or of the previous mode. -/
theorem SameReach.selectedMode {before current : Machine δ} (same : SameReach before current)
    {choice : ModeChoice} (outside : choice ≠ .kernel) :
    current.selectedMode choice = before.psw.mode ∨
      current.selectedMode choice = before.psw.previousMode := by
  cases choice with
  | current => exact .inl (congrArg Psw.mode same.psw)
  | previous => exact .inr (congrArg Psw.previousMode same.psw)
  | kernel => exact absurd rfl outside

/-- A byte that a store changes was open to be written. -/
theorem SameReach.reaches_of_storeSelected_changes {before current : Machine δ}
    (same : SameReach before current) {address value : Word} {width : Width}
    {select : AccessSpace} (outside : select.mode ≠ .kernel) {offset : Nat}
    (changed : (current.storeSelected address value width select).2.ram.readByte? offset ≠
      current.ram.readByte? offset) : before.Reaches .write offset := by
  have inUse := same.selectedMode outside
  obtain ⟨permits, place⟩ := place_of_write_changes changed
  rw [same.rights.permits_iff] at permits
  rw [same.rights.destination] at place
  rcases place with rfl | ⟨even, rfl⟩
  · exact reaches_of_permits inUse (by decide) permits
  · exact reaches_succ_of_permits inUse (by decide) even permits

theorem isWrite_loadCycle (space : Space) : (loadCycle space).isWrite = false := by
  cases space <;> rfl

theorem sameRights_loadSelected (machine : Machine δ) (address : Word) (width : Width)
    (select : AccessSpace) :
    machine.mmu.SameRights (machine.loadSelected address width select).2.mmu := by
  change machine.mmu.SameRights
    (machine.read (machine.selectedMode select.mode) (loadCycle select.space) address width).2.mmu
  rw [mmu_read]
  split
  · exact .refl _
  · exact Mmu.sameRights_translate (isWrite_loadCycle _) _ _ _

end Machine

namespace MicroOp

theorem sameRights_of_commits_eq_false {op : MicroOp} (uncommitted : op.commits = false)
    (datapath : Datapath δ) :
    datapath.machine.mmu.SameRights (op.effect datapath).datapath.machine.mmu := by
  cases op
  case load dst address width space =>
    rw [machine_load]
    exact datapath.machine.sameRights_loadSelected _ _ _
  case stackGuard =>
    simp only [effect, Machine.guardStack]
    split
    · exact .refl _
    · split <;> exact .refl _
  case step reg amount =>
    simp only [effect]
    split
    · exact Mmu.sameRights_recordStep _ _ _
    · exact .refl _
  case div high low divisor =>
    simp only [effect]
    split <;> exact .refl _
  case halt | wait | reset | store | loadPsw | forceKernel | conditionCodes | evalFlags |
      setPriority => contradiction
  all_goals exact .refl _

/-- Only a store changes memory. -/
theorem ram_effect {op : MicroOp} (notStore : op.isStore = false) (datapath : Datapath δ) :
    (op.effect datapath).datapath.machine.ram = datapath.machine.ram := by
  cases op
  case load dst address width space =>
    rw [machine_load]
    exact (datapath.machine.accessed_loadSelected (datapath.reg address) width space).ram
  case stackGuard => exact (sameResults_guard datapath).ram
  case store => contradiction
  case halt | wait | reset | div | evalFlags | setPriority =>
    simp only [effect, Datapath.proceed]
    split <;> rfl
  all_goals rfl

end MicroOp

/-! ## Runs -/

namespace Datapath

/-- Either nothing has happened yet that bears on what an instruction reaches,
or nothing that is left of it can fail any more. -/
def Ready (before : Machine δ) (datapath : Datapath δ) (ops : List MicroOp) : Prop :=
  before.SameReach datapath.machine ∨ ∀ op ∈ ops, op.canRaise = false

namespace Ready

variable {before : Machine δ} {datapath : Datapath δ} {op : MicroOp} {rest : List MicroOp}

omit [Bus δ] in
/-- An access finds the modes and the rights of the start. -/
theorem sameReach (ready : Ready before datapath (op :: rest)) (raises : op.canRaise) :
    before.SameReach datapath.machine := by
  rcases ready with same | settled
  · exact same
  · rw [settled op List.mem_cons_self] at raises
    contradiction

theorem next (ready : Ready before datapath (op :: rest)) (order : CommitsLast (op :: rest)) :
    Ready before (op.effect datapath).commit rest := by
  rcases ready with same | settled
  · cases committed : op.commits with
    | false =>
        left
        constructor
        · exact (MicroOp.sameResults_of_commits_eq_false committed datapath).psw.trans same.psw
        · exact same.rights.trans (MicroOp.sameRights_of_commits_eq_false committed datapath)
    | true =>
        right
        intro later laterMem
        exact (List.rel_of_pairwise_cons order laterMem).resolve_left (by simp [committed])
  · exact .inr fun later laterMem => settled later (List.mem_cons_of_mem _ laterMem)

end Ready

/-- A byte that a micro-operation changes was open to be written. -/
theorem Ready.reaches_of_effect_changes {before : Machine δ} {datapath : Datapath δ}
    {op : MicroOp} {rest : List MicroOp} (ready : Ready before datapath (op :: rest))
    (unprivileged : op.actsForKernel = false) {offset : Nat}
    (changed : (op.effect datapath).commit.machine.ram.readByte? offset ≠
      datapath.machine.ram.readByte? offset) : before.Reaches .write offset := by
  change (op.effect datapath).datapath.machine.ram.readByte? offset ≠ _ at changed
  cases isStore : op.isStore with
  | false =>
      have kept := op.ram_effect isStore datapath
      exact absurd (congrArg (Ram.readByte? · offset) kept) changed
  | true =>
      cases op
      case store address src width space =>
        have outside : space.mode ≠ .kernel := of_decide_eq_false unprivileged
        rw [MicroOp.machine_store] at changed
        exact (ready.sameReach rfl).reaches_of_storeSelected_changes outside changed
      all_goals contradiction

/-- A byte that a run changes was open to be written when the run started. -/
theorem Ready.reaches_of_run_changes {before : Machine δ} {datapath : Datapath δ}
    {ops : List MicroOp} (ready : Ready before datapath ops) (index : Nat)
    (order : CommitsLast ops) (unprivileged : Unprivileged ops) {offset : Nat}
    (changed : (datapath.run index ops).2.ram.readByte? offset ≠
      datapath.machine.ram.readByte? offset) : before.Reaches .write offset := by
  induction ops generalizing datapath index with
  | nil => exact absurd rfl changed
  | cons op rest ih =>
      by_cases here : (op.effect datapath).commit.machine.ram.readByte? offset =
          datapath.machine.ram.readByte? offset
      · rw [run_cons, ← here] at changed
        split at changed
        · exact ih (ready.next order) _ order.of_cons (Unprivileged.cons_iff.mp unprivileged).2
            changed
        · exact absurd rfl changed
        · exact absurd rfl changed
      · exact ready.reaches_of_effect_changes (Unprivileged.cons_iff.mp unprivileged).1 here

end Datapath

namespace Machine

variable {machine : Machine δ} {instruction : Instruction} {pipeline : Pipeline} {offset : Nat}

/-- Every byte of memory that an instruction changes was open to be written,
through the pages of one of its modes, when it started. -/
theorem reaches_of_execute_changes (encoded : instruction.encode = .ok pipeline)
    (changed : (machine.execute pipeline).machine.ram.readByte? offset ≠
      machine.ram.readByte? offset) : machine.Reaches .write offset := by
  have program : pipeline.ops = instruction.program := Pipeline.ofOps_eq_ok_iff.mp encoded
  have ready : Datapath.Ready machine { machine := machine, signals := .quiet } pipeline.ops :=
    .inl (.refl machine)
  apply ready.reaches_of_run_changes 0
  · rw [program]
    exact instruction.commits_last
  · rw [program]
    exact instruction.unprivileged_program
  · exact changed

/-- A byte that could not even be read stays as it is. -/
theorem readByte?_execute_of_not_readable (encoded : instruction.encode = .ok pipeline)
    (hidden : ¬ machine.Readable offset) :
    (machine.execute pipeline).machine.ram.readByte? offset = machine.ram.readByte? offset := by
  apply Decidable.byContradiction
  intro changed
  exact hidden (readable_of_reaches_write (reaches_of_execute_changes encoded changed))

end Machine

end Pdp11
