import Pdp11.Proofs.RegisterWrites

/-!
# Recovery from a memory management abort

A handler runs an aborted instruction again by stepping back the registers
that MMR1 notes and returning to the address in MMR2. This works as long as
every change of a general register before an access is a noted step, of which
there are at most two. A mark is the exception: it moves the stack pointer
without a note and then loads through it.
-/

namespace Pdp11

universe u

/-! ## What the notes say -/

namespace Mmr1

/-- The amount that one note holds for `register`. -/
def noted (note : Byte) (register : BitVec 3) : Word :=
  if note.extractLsb' 0 3 = register then (note.extractLsb' 3 5).signExtend 16 else 0

/-- The sum of the amounts that the notes hold for `register`. -/
def total (notes : Mmr1) (register : BitVec 3) : Word :=
  noted notes.first register + noted notes.second register

theorem noted_zero (register : BitVec 3) : noted 0 register = 0 := by
  unfold noted
  split <;> rfl

theorem total_cleared (register : BitVec 3) : cleared.total register = 0 := by
  change noted 0 register + noted 0 register = 0
  rw [noted_zero]
  rfl

theorem noted_note {amount : Word} (fits : MicroOp.noteFits amount) (register asked : BitVec 3) :
    noted (note register amount) asked = if register = asked then amount else 0 := by
  have parts : ∀ (high : BitVec 5) (low : BitVec 3),
      (high ++ low).extractLsb' 0 3 = low ∧ (high ++ low).extractLsb' 3 5 = high := by
    decide
  rw [noted, note, (parts _ _).1, (parts _ _).2, of_decide_eq_true fits]

/-- A note adds its amount to what the notes hold, as long as the second byte
is free. -/
theorem total_record {notes : Mmr1} {amount : Word} (room : notes.second = 0)
    (fits : MicroOp.noteFits amount) (register asked : BitVec 3) :
    (notes.record register amount).total asked =
      notes.total asked + if register = asked then amount else 0 := by
  unfold record
  split
  · rename_i blank
    simp only [total, noted_note fits, room, blank, noted_zero]
    simp
  · simp only [total, noted_note fits, room, noted_zero]
    simp

end Mmr1

namespace Reg

/-- The number of a general register in a note. -/
def field (reg : Reg) : BitVec 3 :=
  BitVec.ofNat 3 reg.number

theorem ofField_field {reg : Reg} (general : reg.isGeneral) : ofField reg.field = reg := by
  cases reg <;> first | rfl | contradiction

theorem field_inj {first second : Reg} (firstGeneral : first.isGeneral)
    (secondGeneral : second.isGeneral) : first.field = second.field ↔ first = second := by
  constructor
  · intro sameField
    rw [← ofField_field firstGeneral, sameField, ofField_field secondGeneral]
  · rintro rfl
    rfl

/-- `R0` to `R5` and the stack pointer, which a handler has to restore. -/
def isRestored (reg : Reg) : Bool :=
  reg.isGeneral && reg ≠ pc

end Reg

variable {δ : Type u}

namespace Machine

/-- A handler that steps the registers back by what MMR1 notes finds them as
they were in `before`, and MMR2 tells it where the instruction is. -/
structure Recoverable (before after : Machine δ) : Prop where
  address : after.mmu.mmr2 = before.pc
  registers : ∀ reg : Reg, reg.isRestored →
    after.reg reg - after.mmu.mmr1.total reg.field = before.reg reg

/-- A later access of the instruction may still abort: the registers can be
stepped back, and `taken` notes are in use. -/
structure Restorable (before : Machine δ) (taken : Nat) (current : Machine δ) : Prop
    extends Recoverable before current where
  psw : current.psw = before.psw
  unlatched : current.mmu.frozen = false
  blank : taken = 0 → current.mmu.mmr1 = .cleared
  room : taken ≤ 1 → current.mmu.mmr1.second = 0

/-- What neither steps a register nor notes anything keeps the registers
recoverable. -/
theorem Recoverable.of_same {before current after : Machine δ}
    (recoverable : Recoverable before current) (mmr1 : after.mmu.mmr1 = current.mmu.mmr1)
    (mmr2 : after.mmu.mmr2 = current.mmu.mmr2)
    (registers : ∀ reg : Reg, reg.isRestored → after.reg reg = current.reg reg) :
    Recoverable before after where
  address := mmr2.trans recoverable.address
  registers := by
    intro reg restored
    rw [mmr1, registers reg restored]
    exact recoverable.registers reg restored

end Machine

variable [Bus δ]

namespace MicroOp

/-! ## The notes after a micro-operation -/

/-- Only a step writes a note, and no abort is recorded while the instruction
goes on. -/
theorem notes_effect {op : MicroOp} (uncommitted : op.commits = false)
    (notStep : op.isStep = false) (datapath : Datapath δ) :
    (op.effect datapath).datapath.machine.mmu.mmr1 = datapath.machine.mmu.mmr1 ∧
      (op.effect datapath).datapath.machine.mmu.mmr2 = datapath.machine.mmu.mmr2 ∧
      ((op.effect datapath).disposition = .next →
        (op.effect datapath).datapath.machine.mmu.frozen = datapath.machine.mmu.frozen) := by
  cases op
  case load dst address width space =>
    have accessed := datapath.machine.accessed_loadSelected (datapath.reg address) width space
    have mmr2 := datapath.machine.mmr2_loadSelected (datapath.reg address) width space
    simp only [effect]
    split
    · rename_i outcome
      have unlatched := Machine.frozen_loadSelected_of_ok (congrArg Prod.fst outcome)
      rw [outcome] at accessed mmr2 unlatched
      exact ⟨accessed.mmu.mmr1, mmr2, fun _ => unlatched⟩
    · rename_i outcome
      rw [outcome] at accessed mmr2
      refine ⟨accessed.mmu.mmr1, mmr2, ?_⟩
      intro goesOn
      contradiction
  case stackGuard =>
    simp only [effect, Machine.guardStack]
    split
    · exact ⟨rfl, rfl, fun _ => rfl⟩
    · split <;> exact ⟨rfl, rfl, fun _ => rfl⟩
  case div high low divisor =>
    simp only [effect]
    split <;> exact ⟨rfl, rfl, fun _ => rfl⟩
  case step | halt | wait | reset | store | loadPsw | forceKernel | conditionCodes | evalFlags |
      setPriority => contradiction
  all_goals exact ⟨rfl, rfl, fun _ => rfl⟩

/-- A micro-operation that raises a trap writes no note either. -/
theorem notes_of_raises {op : MicroOp} {datapath : Datapath δ} {kind : TrapClass}
    (raises : (op.effect datapath).disposition = .raise kind) :
    (op.effect datapath).datapath.machine.mmu.mmr1 = datapath.machine.mmu.mmr1 ∧
      (op.effect datapath).datapath.machine.mmu.mmr2 = datapath.machine.mmu.mmr2 := by
  have raising := canRaise_of_raises raises
  cases op
  case load dst address width space =>
    have kept := (load dst address width space).notes_effect rfl rfl datapath
    exact ⟨kept.1, kept.2.1⟩
  case stackGuard =>
    have kept := stackGuard.notes_effect rfl rfl datapath
    exact ⟨kept.1, kept.2.1⟩
  case raiseTrap => exact ⟨rfl, rfl⟩
  case halt =>
    simp only [effect]
    split <;> exact ⟨rfl, rfl⟩
  case store address src width space =>
    simp only [effect] at raises ⊢
    split
    · rename_i stored
      rw [stored] at raises
      contradiction
    · rename_i refused
      have accessed := Machine.accessed_storeSelected_of_error (congrArg Prod.fst refused)
      have mmr2 := Machine.mmr2_storeSelected_of_error (congrArg Prod.fst refused)
      rw [refused] at accessed mmr2
      exact ⟨accessed.mmu.mmr1, mmr2⟩
  all_goals contradiction

theorem mmu_commit_step (reg : Reg) (amount : Word) (datapath : Datapath δ)
    (unlatched : datapath.machine.mmu.frozen = false) :
    ((step reg amount).effect datapath).commit.machine.mmu =
      { datapath.machine.mmu with
        mmr1 :=
          if reg.isGeneral then datapath.machine.mmu.mmr1.record reg.field amount
          else datapath.machine.mmu.mmr1 } := by
  change (if reg.isGeneral then datapath.machine.mmu.recordStep reg.field amount
    else datapath.machine.mmu) = _
  have recorded : datapath.machine.mmu.recordStep reg.field amount =
      { datapath.machine.mmu with mmr1 := datapath.machine.mmu.mmr1.record reg.field amount } := by
    simp [Mmu.recordStep, unlatched]
  rw [recorded]
  split <;> rfl

end MicroOp

namespace Machine.Restorable

variable {before : Machine δ} {taken : Nat}

/-! ## Gathering keeps the registers restorable -/

omit [Bus δ] in
theorem isGeneral {reg : Reg} (restored : reg.isRestored) : reg.isGeneral := by
  simp only [Reg.isRestored, Bool.and_eq_true] at restored
  exact restored.1

/-- Most micro-operations that gather write scratch registers only. -/
theorem gather {op : MicroOp} {datapath : Datapath δ}
    (restorable : Restorable before taken datapath.machine) (gathers : op.gathers)
    (notStep : op.isStep = false) (goesOn : (op.effect datapath).disposition = .next) :
    Restorable before taken (op.effect datapath).commit.machine := by
  have uncommitted := (MicroOp.gathers_iff.mp gathers).1
  obtain ⟨mmr1, mmr2, unlatched⟩ := MicroOp.notes_effect uncommitted notStep datapath
  have same := MicroOp.sameResults_of_commits_eq_false uncommitted datapath
  constructor
  · refine restorable.toRecoverable.of_same mmr1 mmr2 ?_
    intro reg restored
    exact MicroOp.reg_commit_of_gathers gathers notStep datapath (isGeneral restored)
  · exact same.psw.trans restorable.psw
  · exact (unlatched goesOn).trans restorable.unlatched
  · intro blank
    exact mmr1.trans (restorable.blank blank)
  · intro room
    exact (congrArg Mmr1.second mmr1).trans (restorable.room room)

/-- A step takes a note and puts its amount there. -/
theorem step {datapath : Datapath δ} (restorable : Restorable before taken datapath.machine)
    (reg : Reg) {amount : Word} (fits : MicroOp.noteFits amount) (free : taken ≤ 1) :
    Restorable before (taken + 1)
      ((MicroOp.step reg amount).effect datapath).commit.machine := by
  have stepped := MicroOp.mmu_commit_step reg amount datapath restorable.unlatched
  have noted : ∀ asked : Reg, asked.isRestored →
      (if reg.isGeneral then datapath.machine.mmu.mmr1.record reg.field amount
        else datapath.machine.mmu.mmr1).total asked.field =
        datapath.machine.mmu.mmr1.total asked.field + if reg = asked then amount else 0 := by
    intro asked restored
    by_cases general : reg.isGeneral
    · rw [if_pos general, Mmr1.total_record (restorable.room free) fits]
      simp only [Reg.field_inj general (isGeneral restored)]
    · have other : reg ≠ asked := by
        rintro rfl
        exact general (isGeneral restored)
      rw [if_neg general, if_neg other]
      simp
  constructor
  · constructor
    · rw [stepped]
      exact restorable.address
    · intro asked restored
      rw [MicroOp.reg_commit_step, stepped, noted asked restored,
        ← restorable.registers asked restored, BitVec.sub_eq_iff_eq_add, ← BitVec.add_assoc,
        BitVec.sub_add_cancel]
  · exact restorable.psw
  · rw [stepped]
    exact restorable.unlatched
  · intro blank
    contradiction
  · intro room
    have blank : taken = 0 := by omega
    rw [stepped, restorable.blank blank]
    split <;> rfl

/-- Gathering keeps the registers restorable, as long as there are notes for
all the steps. -/
theorem steps {datapath final : Datapath δ} {ops : List MicroOp}
    (steps : Datapath.Steps datapath ops final) (gathers : ∀ op ∈ ops, op.gathers)
    (fits : taken + stepCount ops ≤ 2) (restorable : Restorable before taken datapath.machine) :
    Restorable before (taken + stepCount ops) final.machine := by
  induction steps generalizing taken with
  | nil => exact restorable
  | @cons datapath next final op rest step tail ih =>
      obtain ⟨goesOn, rfl⟩ := step
      have gathersOp := gathers op List.mem_cons_self
      have gathersRest : ∀ later ∈ rest, later.gathers :=
        fun later laterMem => gathers later (List.mem_cons_of_mem _ laterMem)
      rw [stepCount_cons] at fits ⊢
      by_cases isStep : op.isStep
      · rw [if_pos isStep] at fits ⊢
        cases op
        case step reg amount =>
          have noteFits : MicroOp.noteFits amount := by simpa using gathersOp
          have stepped := restorable.step reg noteFits (by omega)
          have done := ih gathersRest (by omega) stepped
          rwa [Nat.add_right_comm] at done
        all_goals contradiction
      · rw [if_neg isStep] at fits ⊢
        exact ih gathersRest fits
          (restorable.gather gathersOp (Bool.eq_false_iff.mpr isStep) goesOn)

/-- What raises a trap leaves the notes and the registers alone. -/
theorem raises {datapath : Datapath δ} {op : MicroOp} {kind : TrapClass}
    (restorable : Restorable before taken datapath.machine)
    (raises : (op.effect datapath).disposition = .raise kind) :
    Recoverable before ((op.effect datapath).commit.machine.raise kind) := by
  obtain ⟨mmr1, mmr2⟩ := MicroOp.notes_of_raises raises
  have same := MicroOp.sameResults_of_raises raises
  refine restorable.toRecoverable.of_same mmr1 mmr2 ?_
  intro reg _
  change (op.effect datapath).commit.machine.registers.get
    (reg.cell (op.effect datapath).datapath.machine.psw) = _
  rw [same.psw, Effect.get_commit _ (by simp [MicroOp.writes_of_raises raises]),
    MicroOp.registers_effect]
  rfl

end Machine.Restorable

namespace Machine

/-- An instruction that traps leaves the registers recoverable, unless it is a
mark. -/
theorem Restorable.execute_trapped {before machine : Machine δ} {instruction : Instruction}
    {pipeline : Pipeline} {index : Nat} {kind : TrapClass}
    (restorable : Restorable before 0 machine) (notMark : instruction.opcode ≠ .mark)
    (encoded : instruction.encode = .ok pipeline)
    (trapped : (machine.execute pipeline).result = .ok (.trapped index kind)) :
    Recoverable before (machine.execute pipeline).machine := by
  have program : pipeline.ops = instruction.program := Pipeline.ofOps_eq_ok_iff.mp encoded
  have staged := instruction.staged_program notMark
  have counted := instruction.stepCount_program
  have ends : Datapath.run { machine := machine, signals := .quiet } 0 pipeline.ops =
      (.ok (.trapped index kind), (machine.execute pipeline).machine) := Prod.ext trapped rfl
  obtain ⟨gathered, op, rest, middle, split, steps, -, raises, final⟩ :=
    Datapath.run_trapped_iff.mp ends
  rw [← program, split] at staged counted
  have gathers := staged.gathers_before (MicroOp.canRaise_of_raises raises)
  have enough : 0 + stepCount gathered ≤ 2 := by
    rw [stepCount_append] at counted
    omega
  rw [← final]
  exact (restorable.steps steps gathers enough).raises raises

end Machine

end Pdp11
