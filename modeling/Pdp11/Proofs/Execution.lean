import Pdp11.Machine.Execution
import Pdp11.Microcode.Program

/-!
# Runs of micro-operations

A run that ends somewhere first goes on for a while. Splitting it there turns
a statement about the run into one about each micro-operation that let the
instruction go on, and one about the micro-operation that ended it.
-/

namespace Pdp11

universe u

/-- Only micro-operations see the scratch registers. -/
def Cell.isScratch : Cell → Bool
  | scratch _ => true
  | general _ _ | stackPointer _ | programCounter => false

theorem Reg.isScratch_cell (reg : Reg) (psw : Psw) :
    (reg.cell psw).isScratch = !reg.isGeneral := by
  cases reg <;> rfl

/-- A scratch register holds no cell that outlives the instruction. -/
theorem Reg.cell_ne_of_scratch {reg : Reg} (scratch : reg.isGeneral = false) {cell : Cell}
    (visible : cell.isScratch = false) (psw : Psw) : reg.cell psw ≠ cell := by
  rintro rfl
  rw [isScratch_cell, scratch] at visible
  contradiction

/-- A scratch register is the same cell under every status word. -/
theorem Reg.cell_of_scratch {reg : Reg} (scratch : reg.isGeneral = false) (first second : Psw) :
    reg.cell first = reg.cell second := by
  cases reg <;> first | rfl | contradiction

namespace MicroOp

variable {δ : Type u} [Bus δ]

/-- No micro-operation posts more register writes than are allowed. -/
@[simp]
theorem conflicts_effect (op : MicroOp) (datapath : Datapath δ) :
    (op.effect datapath).conflicts = false := by
  cases op <;> simp only [effect] <;> (try split) <;>
    simp [Effect.conflicts, maxWrites, Datapath.post, Datapath.postWith, Datapath.postWide,
      Datapath.proceed, Datapath.stop]

/-- A load leaves the machine as its access does, whether that succeeds or not. -/
theorem machine_load (dst address : Reg) (width : Width) (space : AccessSpace)
    (datapath : Datapath δ) :
    ((load dst address width space).effect datapath).datapath.machine =
      (datapath.machine.loadSelected (datapath.reg address) width space).2 := by
  simp only [effect]
  split <;> rename_i outcome <;> rw [outcome] <;> rfl

theorem machine_store (address src : Reg) (width : Width) (space : AccessSpace)
    (datapath : Datapath δ) :
    ((store address src width space).effect datapath).datapath.machine =
      (datapath.machine.storeSelected (datapath.reg address) (datapath.reg src) width space).2 := by
  simp only [effect]
  split <;> rename_i outcome <;> rw [outcome] <;> rfl

theorem reg_commit_step (reg asked : Reg) (amount : Word) (datapath : Datapath δ) :
    ((step reg amount).effect datapath).commit.machine.reg asked =
      datapath.machine.reg asked + if reg = asked then amount else 0 := by
  change (datapath.machine.setReg reg (datapath.machine.reg reg + amount)).reg asked = _
  rw [Machine.reg_setReg]
  split
  · rename_i same
    rw [same]
  · simp

end MicroOp

namespace Datapath

variable {δ : Type u} [Bus δ]

/-- The instruction goes on after `op`, with `next`. -/
def Step (datapath : Datapath δ) (op : MicroOp) (next : Datapath δ) : Prop :=
  (op.effect datapath).disposition = .next ∧ (op.effect datapath).commit = next

/-- The instruction goes on after each of `ops`, and comes to `final`. -/
inductive Steps : Datapath δ → List MicroOp → Datapath δ → Prop
  | nil (datapath : Datapath δ) : Steps datapath [] datapath
  | cons {datapath next final : Datapath δ} {op : MicroOp} {rest : List MicroOp} :
      datapath.Step op next → Steps next rest final → Steps datapath (op :: rest) final

theorem run_cons (datapath : Datapath δ) (index : Nat) (op : MicroOp) (rest : List MicroOp) :
    datapath.run index (op :: rest) =
      match (op.effect datapath).disposition with
      | .next => (op.effect datapath).commit.run (index + 1) rest
      | .flush => (.ok (.transferred index), (op.effect datapath).commit.machine)
      | .raise kind =>
        (.ok (.trapped index kind), (op.effect datapath).commit.machine.raise kind) := by
  rw [run, MicroOp.conflicts_effect]
  rfl

theorem Step.run_cons {datapath next : Datapath δ} {op : MicroOp} (step : datapath.Step op next)
    (index : Nat) (rest : List MicroOp) :
    datapath.run index (op :: rest) = next.run (index + 1) rest := by
  obtain ⟨goesOn, rfl⟩ := step
  rw [Datapath.run_cons, goesOn]

namespace Steps

variable {datapath middle final : Datapath δ} {op : MicroOp} {first second : List MicroOp}

theorem single (step : datapath.Step op final) : Steps datapath [op] final :=
  .cons step (.nil final)

theorem append (head : Steps datapath first middle) (tail : Steps middle second final) :
    Steps datapath (first ++ second) final := by
  induction head with
  | nil => exact tail
  | cons step _ ih => exact .cons step (ih tail)

theorem cons_iff {rest : List MicroOp} :
    Steps datapath (op :: rest) final ↔ ∃ next, datapath.Step op next ∧ Steps next rest final := by
  constructor
  · rintro (_ | ⟨step, steps⟩)
    exact ⟨_, step, steps⟩
  · rintro ⟨next, step, steps⟩
    exact .cons step steps

theorem append_iff :
    Steps datapath (first ++ second) final ↔
      ∃ middle, Steps datapath first middle ∧ Steps middle second final := by
  induction first generalizing datapath with
  | nil =>
      constructor
      · intro steps
        exact ⟨datapath, .nil datapath, steps⟩
      · rintro ⟨middle, ⟨⟩, steps⟩
        exact steps
  | cons op rest ih =>
      rw [List.cons_append, cons_iff]
      constructor
      · rintro ⟨next, step, steps⟩
        rcases ih.mp steps with ⟨middle, head, tail⟩
        exact ⟨middle, .cons step head, tail⟩
      · rintro ⟨middle, head, tail⟩
        rcases cons_iff.mp head with ⟨next, step, steps⟩
        exact ⟨next, step, ih.mpr ⟨middle, steps, tail⟩⟩

/-- A run continues where its first part leaves off. -/
theorem run_append (steps : Steps datapath first middle) (index : Nat)
    (second : List MicroOp) :
    datapath.run index (first ++ second) = middle.run (index + first.length) second := by
  induction steps generalizing index with
  | nil => rfl
  | cons step _ ih =>
      rw [List.cons_append, step.run_cons, ih, List.length_cons]
      congr 1
      omega

theorem run_eq {ops : List MicroOp} (steps : Steps datapath ops final) (index : Nat) :
    datapath.run index ops = (.ok .completed, final.machine) := by
  have whole := steps.run_append index []
  rw [List.append_nil] at whole
  exact whole

/-- A run goes on in one way only. -/
theorem unique {ops : List MicroOp} {other : Datapath δ} (steps : Steps datapath ops final)
    (others : Steps datapath ops other) : final = other := by
  induction steps with
  | nil =>
      cases others
      rfl
  | cons step _ ih =>
      rcases cons_iff.mp others with ⟨_, again, rest⟩
      cases step.2.symm.trans again.2
      exact ih rest

/-- What each of `ops` preserves when the instruction goes on, all of them
together preserve. -/
theorem preserves {ops : List MicroOp} (steps : Steps datapath ops final)
    (holds : Datapath δ → Prop)
    (preserved : ∀ op ∈ ops, ∀ {before after}, Step before op after →
      holds before → holds after)
    (initially : holds datapath) : holds final := by
  induction steps with
  | nil => exact initially
  | cons step _ ih =>
      apply ih
      · intro op opMem
        exact preserved op (List.mem_cons_of_mem _ opMem)
      · exact preserved _ List.mem_cons_self step initially

end Steps

/-! ## Accesses that succeed -/

theorem step_load {datapath : Datapath δ} {dst address : Reg} {width : Width}
    {space : AccessSpace} {word : Word} {loaded : Machine δ}
    (loads : datapath.machine.loadSelected (datapath.reg address) width space =
      (.ok word, loaded)) :
    datapath.Step (.load dst address width space)
      { datapath with machine := loaded.setReg dst word } := by
  constructor
  · simp only [MicroOp.effect, loads]
    rfl
  · simp only [MicroOp.effect, loads]
    rfl

/-- A run that does not trap gets past a load at its head. -/
theorem load_of_not_trapped {datapath : Datapath δ} {dst address : Reg} {width : Width}
    {space : AccessSpace} {index : Nat} {rest : List MicroOp}
    (untrapped : ∀ position kind,
      (datapath.run index (.load dst address width space :: rest)).1 ≠
        .ok (.trapped position kind)) :
    ∃ word loaded, datapath.machine.loadSelected (datapath.reg address) width space =
      (.ok word, loaded) := by
  cases outcome : datapath.machine.loadSelected (datapath.reg address) width space with
  | mk answer loaded =>
      cases answer with
      | error error =>
          have traps := untrapped index error.trapClass
          rw [run_cons] at traps
          simp [MicroOp.effect, outcome, stop] at traps
      | ok word => exact ⟨word, loaded, rfl⟩

theorem step_store {datapath : Datapath δ} {address src : Reg} {width : Width}
    {space : AccessSpace} {stored : Machine δ}
    (stores : datapath.machine.storeSelected (datapath.reg address) (datapath.reg src) width space =
      (.ok (), stored)) :
    datapath.Step (.store address src width space) { datapath with machine := stored } := by
  constructor
  · simp only [MicroOp.effect, stores]
    rfl
  · simp only [MicroOp.effect, stores]
    rfl

theorem store_of_not_trapped {datapath : Datapath δ} {address src : Reg} {width : Width}
    {space : AccessSpace} {index : Nat} {rest : List MicroOp}
    (untrapped : ∀ position kind,
      (datapath.run index (.store address src width space :: rest)).1 ≠
        .ok (.trapped position kind)) :
    ∃ stored, datapath.machine.storeSelected (datapath.reg address) (datapath.reg src) width
      space = (.ok (), stored) := by
  cases outcome : datapath.machine.storeSelected (datapath.reg address) (datapath.reg src) width
    space with
  | mk answer stored =>
      cases answer with
      | error error =>
          have traps := untrapped index error.trapClass
          rw [run_cons] at traps
          simp [MicroOp.effect, outcome, stop] at traps
      | ok => exact ⟨stored, rfl⟩

/-- A load after which the instruction goes on has posted the word it read. -/
theorem exists_of_step_load {datapath next : Datapath δ} {dst address : Reg} {width : Width}
    {space : AccessSpace} (step : datapath.Step (.load dst address width space) next) :
    ∃ loaded, datapath.machine.loadSelected (datapath.reg address) width space =
      (.ok (next.reg dst), loaded) := by
  cases outcome : datapath.machine.loadSelected (datapath.reg address) width space with
  | mk answer loaded =>
      cases answer with
      | error error =>
          have goesOn := step.1
          simp [MicroOp.effect, outcome, stop] at goesOn
      | ok word =>
          have posted : next.reg dst = word := by
            rw [← step.2, (step_load outcome).2]
            change (loaded.setReg dst word).reg dst = word
            rw [Machine.reg_setReg, if_pos rfl]
          rw [posted]
          exact ⟨loaded, rfl⟩

theorem exists_of_step_store {datapath next : Datapath δ} {address src : Reg} {width : Width}
    {space : AccessSpace} (step : datapath.Step (.store address src width space) next) :
    ∃ stored, datapath.machine.storeSelected (datapath.reg address) (datapath.reg src) width
      space = (.ok (), stored) ∧ next = { datapath with machine := stored } := by
  cases outcome : datapath.machine.storeSelected (datapath.reg address) (datapath.reg src) width
    space with
  | mk answer stored =>
      cases answer with
      | error error =>
          have goesOn := step.1
          simp [MicroOp.effect, outcome, stop] at goesOn
      | ok => exact ⟨stored, rfl, step.2.symm.trans (step_store outcome).2⟩

/-! ## Checks of the stack pointer -/

/-- The guard lets an instruction go on above the limit of the kernel stack. -/
theorem step_stackGuard {datapath : Datapath δ}
    (above : datapath.machine.psw.mode = .kernel → ¬ datapath.reg .sp < stackLimit) :
    datapath.Step .stackGuard datapath := by
  have passes : datapath.machine.guardStack = (.next, datapath.machine) := by
    unfold Machine.guardStack
    dsimp only
    by_cases kernel : datapath.machine.psw.mode = .kernel
    · have notBelow := above kernel
      change ¬ datapath.machine.reg .sp < stackLimit at notBelow
      have notInRedZone : ¬ datapath.machine.reg .sp < stackRedZone := by
        intro below
        apply notBelow
        exact BitVec.lt_trans below (by decide)
      simp [notBelow, notInRedZone]
    · simp [Machine.inKernel, kernel]
  constructor
  · simp only [MicroOp.effect, passes]
    rfl
  · simp only [MicroOp.effect, passes]
    rfl

/-- Between the red zone and the limit it asks for a trap and lets the instruction
go on. -/
theorem step_stackGuard_of_below {datapath : Datapath δ}
    (kernel : datapath.machine.psw.mode = .kernel) (below : datapath.reg .sp < stackLimit)
    (notInRedZone : ¬ datapath.reg .sp < stackRedZone) :
    datapath.Step .stackGuard
      { datapath with machine := datapath.machine.raise .stackOverflow } := by
  have asks : datapath.machine.guardStack =
      (.next, datapath.machine.raise .stackOverflow) := by
    rw [reg] at below notInRedZone
    simp [Machine.guardStack, Machine.inKernel, kernel, below, notInRedZone]
  constructor
  · simp only [MicroOp.effect, asks]
    rfl
  · simp only [MicroOp.effect, asks]
    rfl

/-- In the red zone it ends the instruction. -/
theorem stackGuard_effect_of_redZone {datapath : Datapath δ}
    (kernel : datapath.machine.psw.mode = .kernel) (inRedZone : datapath.reg .sp < stackRedZone) :
    MicroOp.stackGuard.effect datapath =
      datapath.stop
        { datapath.machine with traps := datapath.machine.traps.insertRedZone }
        (.raise .stackOverflow) := by
  rw [reg] at inRedZone
  simp [MicroOp.effect, Machine.guardStack, Machine.inKernel, kernel, inRedZone]

/-! ## Runs that come to their end -/

/-- All of `ops` let the instruction go on, or there is a first that does not. -/
theorem exists_steps_or_stop (datapath : Datapath δ) (ops : List MicroOp) :
    (∃ last, Steps datapath ops last) ∨
      ∃ before op after middle, ops = before ++ op :: after ∧ Steps datapath before middle ∧
        (op.effect middle).disposition ≠ .next := by
  induction ops generalizing datapath with
  | nil => exact .inl ⟨datapath, .nil datapath⟩
  | cons op rest ih =>
      by_cases goesOn : (op.effect datapath).disposition = .next
      · rcases ih (op.effect datapath).commit with
          ⟨last, steps⟩ | ⟨before, stopping, after, middle, rfl, steps, stops⟩
        · exact .inl ⟨last, .cons ⟨goesOn, rfl⟩ steps⟩
        · exact .inr ⟨op :: before, stopping, after, middle, rfl, .cons ⟨goesOn, rfl⟩ steps, stops⟩
      · exact .inr ⟨[], op, rest, datapath, rfl, .nil datapath, goesOn⟩

theorem steps_of_run_completed {datapath : Datapath δ} {ops : List MicroOp} {index : Nat}
    {final : Machine δ} (ends : datapath.run index ops = (.ok .completed, final)) :
    ∃ last, Steps datapath ops last ∧ last.machine = final := by
  induction ops generalizing datapath index with
  | nil =>
      cases ends
      exact ⟨datapath, .nil datapath, rfl⟩
  | cons op rest ih =>
      rw [run_cons] at ends
      cases disposition : (op.effect datapath).disposition with
      | next =>
          rw [disposition] at ends
          rcases ih ends with ⟨last, steps, reached⟩
          exact ⟨last, .cons ⟨disposition, rfl⟩ steps, reached⟩
      | flush => simp [disposition] at ends
      | raise kind => simp [disposition] at ends

/-! ## Runs that trap -/

/-- A run that raises a trap goes on up to some micro-operation, which raises
it. -/
theorem run_trapped_iff {datapath : Datapath δ} {ops : List MicroOp} {index position : Nat}
    {kind : TrapClass} {final : Machine δ} :
    datapath.run index ops = (.ok (.trapped position kind), final) ↔
      ∃ before op after middle, ops = before ++ op :: after ∧
        Steps datapath before middle ∧ position = index + before.length ∧
        (op.effect middle).disposition = .raise kind ∧
        (op.effect middle).commit.machine.raise kind = final := by
  constructor
  · intro ends
    induction ops generalizing datapath index with
    | nil => simp [run] at ends
    | cons op rest ih =>
        rw [run_cons] at ends
        cases disposition : (op.effect datapath).disposition with
        | next =>
            rw [disposition] at ends
            obtain ⟨before, raising, after, middle, rfl, steps, rfl, raises, rfl⟩ := ih ends
            refine ⟨op :: before, raising, after, middle, rfl,
              .cons ⟨disposition, rfl⟩ steps, ?_, raises, rfl⟩
            rw [List.length_cons]
            omega
        | flush => simp [disposition] at ends
        | raise raised =>
            rw [disposition] at ends
            cases ends
            exact ⟨[], op, rest, datapath, rfl, .nil datapath, rfl, disposition, rfl⟩
  · rintro ⟨before, op, after, middle, rfl, steps, rfl, raises, rfl⟩
    rw [steps.run_append, run_cons, raises]

/-- What every one of `ops` preserves, and with it the trap that it raises, a run
of them preserves however it ends. -/
theorem run_preserves {ops : List MicroOp} (holds : Machine δ → Prop)
    (effects : ∀ op ∈ ops, ∀ datapath : Datapath δ, holds datapath.machine →
      holds (op.effect datapath).commit.machine)
    (raises : ∀ op ∈ ops, ∀ (datapath : Datapath δ) (kind : TrapClass),
      (op.effect datapath).disposition = .raise kind →
        ∀ machine, holds machine → holds (machine.raise kind))
    {datapath : Datapath δ} (index : Nat) (initially : holds datapath.machine) :
    holds (datapath.run index ops).2 := by
  induction ops generalizing datapath index with
  | nil => exact initially
  | cons op rest ih =>
      have stepped := effects op List.mem_cons_self datapath initially
      rw [run_cons]
      split
      · apply ih
        · intro later laterMem
          exact effects later (List.mem_cons_of_mem _ laterMem)
        · intro later laterMem
          exact raises later (List.mem_cons_of_mem _ laterMem)
        · exact stepped
      · exact stepped
      · rename_i kind disposition
        exact raises op List.mem_cons_self datapath kind disposition _ stepped

end Datapath

namespace Machine

variable {δ : Type u} [Bus δ]

/-- An instruction that runs to its end goes on after each of its micro-operations. -/
theorem exists_steps_of_completed {machine : Machine δ} {instruction : Instruction}
    {pipeline : Pipeline} (encoded : instruction.encode = .ok pipeline)
    (completed : (machine.execute pipeline).result = .ok .completed) :
    ∃ last, Datapath.Steps { machine := machine, signals := .quiet } instruction.program last ∧
      last.machine = (machine.execute pipeline).machine := by
  have ops : pipeline.ops = instruction.program := Pipeline.ofOps_eq_ok_iff.mp encoded
  have ends : Datapath.run { machine := machine, signals := .quiet } 0 pipeline.ops =
      (.ok .completed, (machine.execute pipeline).machine) := Prod.ext completed rfl
  rw [ops] at ends
  exact Datapath.steps_of_run_completed ends

end Machine

end Pdp11
