import Pdp11.Proofs.EmergencyEntry
import Pdp11.Proofs.Pushes

/-!
# What entry to a handler leaves alone

Entry stores two words on the kernel stack and leaves alone the general
registers and the stacks of the other modes, with one exception. A kernel stack
pointer just above the status word makes the first push a store to the status
word, which brings back the interrupted mode; the second push then goes to the
stack of that mode.
-/

namespace Pdp11

universe u

variable {δ : Type u} [Bus δ]

/-! ## Runs that trap early -/

namespace Datapath

variable {datapath : Datapath δ} {index : Nat} {ops first second : List MicroOp}

/-- A run that names scratch registers alone leaves the others as they were. -/
theorem get_run_of_scratch
    (scratch : ∀ op ∈ ops, ∀ reg ∈ op.destinations, reg.isGeneral = false)
    (named : ∀ op ∈ ops, ∀ src, op ≠ .writePreviousSp src) {cell : Cell}
    (visible : cell.isScratch = false) :
    (datapath.run index ops).2.registers.get cell = datapath.machine.registers.get cell := by
  apply run_preserves fun machine =>
    machine.registers.get cell = datapath.machine.registers.get cell
  · intro op opMem reached same
    rw [Effect.get_commit, MicroOp.registers_effect, same]
    intro write posted sameCell
    rcases MicroOp.cell_of_mem_writes posted with ⟨reg, regMem, place⟩ | ⟨src, isNamed, -⟩
    · exact Reg.cell_ne_of_scratch (scratch op opMem reg regMem) visible _
        (place.symm.trans sameCell)
    · exact named op opMem src isNamed
  · intro op opMem reached kind raises machine same
    exact same
  · rfl

/-- What comes after a trap does not run. -/
theorem run_append_of_trapped {position : Nat} {kind : TrapClass}
    (traps : (datapath.run index first).1 = .ok (.trapped position kind)) :
    datapath.run index (first ++ second) = datapath.run index first := by
  have ends : datapath.run index first =
      (.ok (.trapped position kind), (datapath.run index first).2) := Prod.ext traps rfl
  obtain ⟨before, op, after, middle, program, steps, place, raises, final⟩ :=
    run_trapped_iff.mp ends
  rw [ends]
  refine run_trapped_iff.mpr ⟨before, op, after ++ second, middle, ?_, steps, place, raises, final⟩
  rw [program, List.append_assoc, List.cons_append]

end Datapath

namespace Machine

/-! ## One try -/

/-- The part of the entry program that comes after the pushes. -/
def entryTail (vector : Word) : List MicroOp :=
  [.loadPsw .s2 (.exception .t0), .jump vector .s0]

/-- The stores that a try to enter the handler at `vector` makes. -/
def entryStores (machine : Machine δ) (vector : Word) : List AcceptedStore :=
  Datapath.stores { machine := machine, signals := .quiet } (entryProgram vector)

/-- The stores that push `status` and then `pc` on the kernel stack at `pointer`. -/
def kernelPushes (pointer status pc : Word) : List AcceptedStore :=
  [{ mode := .kernel, address := pointer - 2, value := status, width := .word },
    { mode := .kernel, address := pointer - 4, value := pc, width := .word }]

/-- The first push of a try lands on the status word, and so ends kernel mode. -/
structure DivertsPush (machine : Machine δ) (vector : Word) : Prop where
  outside : machine.psw.mode ≠ .kernel
  words : ∃ start status, (machine.vectorWords vector).1 = .ok (start, status)
  permits : machine.mmu.Permits .kernel .write (machine.stackPointer .kernel - 2)
  lands : machine.mmu.destination .kernel .write (machine.stackPointer .kernel - 2) = pswAddress

/-- Reading the words at the vector changes no rights. -/
theorem sameRights_entryPrelude {machine switched : Machine δ} {vector : Word}
    (prelude : Datapath.Steps { machine := machine, signals := .quiet } (entryPrelude vector)
      { machine := switched, signals := .quiet }) : machine.mmu.SameRights switched.mmu := by
  refine prelude.preserves (fun reached => machine.mmu.SameRights reached.machine.mmu) ?_ (.refl _)
  intro op opMem before after step same
  obtain ⟨-, rfl⟩ := step
  by_cases forces : op = .forceKernel
  · subst forces
    exact same
  · have uncommitted : op.commits = false := by
      simp only [entryPrelude, List.mem_cons, List.not_mem_nil, or_false] at opMem
      rcases opMem with rfl | rfl | rfl | rfl | rfl | rfl | rfl <;> first | rfl | contradiction
    exact same.trans (MicroOp.sameRights_of_commits_eq_false uncommitted before)

/-- The second push lowers the stack pointer of the mode that it finds. -/
theorem run_secondPush (before : Datapath δ) (index : Nat) (vector : Word) :
    let ops := [.step .sp (-2), .store .sp .t1 .word .data] ++ entryTail vector
    let mode := before.machine.psw.mode
    let address := before.machine.stackPointer mode - 2
    (∀ cell, cell ≠ .programCounter → (before.run index ops).2.registers.get cell =
      (before.machine.registers.set (.stackPointer mode) address).get cell) ∧
    ((∀ position kind, (before.run index ops).1 ≠ .ok (.trapped position kind)) →
      before.stores ops =
        [{ mode := mode, address := address, value := before.reg .t1, width := .word }]) := by
  intro ops mode address
  obtain ⟨lowered, low, outcome⟩ := before.run_push (by decide : Reg.t1 ≠ .sp) index
    (entryTail vector)
  have kept := lowered.registers_write mode address (before.reg .t1) .word
  rw [low.registers] at kept
  rcases outcome with ⟨error, refused, writes, ran⟩ | ⟨stored, writes, ran, logged⟩
  · rw [writes] at kept
    constructor
    · rintro cell -
      rw [ran]
      exact congrArg (fun file : RegisterFile => file.get cell) kept
    · intro untrapped
      exact absurd (congrArg Prod.fst ran) (untrapped _ _)
  · rw [writes] at kept
    constructor
    · intro cell notPc
      rw [ran]
      change (stored.registers.set .programCounter _).get cell = _
      rw [RegisterFile.get_set, if_neg notPc.symm]
      exact congrArg (fun file : RegisterFile => file.get cell) kept
    · intro
      rw [logged]
      rfl

variable {machine : Machine δ} {vector : Word}

/-- A try that reads the words at its vector comes to its pushes. -/
theorem run_of_vectorWords {start status : Word}
    (words : (machine.vectorWords vector).1 = .ok (start, status)) :
    ∃ switched, machine.Switched start status switched ∧ machine.mmu.SameRights switched.mmu ∧
      ∀ rest, Datapath.run { machine := machine, signals := .quiet } 0
          (entryPrelude vector ++ rest) =
        Datapath.run { machine := switched, signals := .quiet } 7 rest ∧
        Datapath.stores { machine := machine, signals := .quiet } (entryPrelude vector ++ rest) =
          Datapath.stores { machine := switched, signals := .quiet } rest := by
  obtain ⟨switched, prelude, ready⟩ := steps_entryPrelude (Prod.ext words rfl)
  refine ⟨switched, ready, sameRights_entryPrelude prelude, ?_⟩
  intro rest
  refine ⟨prelude.run_append 0 rest, prelude.stores_append ?_ rest⟩
  simp [entryPrelude, MicroOp.isStore]

/-- A try that fails to read them has written scratch registers alone. -/
theorem registers_of_no_vectorWords
    (noWords : ∀ start status, (machine.vectorWords vector).1 ≠ .ok (start, status)) :
    let final := Datapath.run { machine := machine, signals := .quiet } 0 (entryProgram vector)
    (∃ index kind, final.1 = .ok (.trapped index kind)) ∧
      ∀ cell : Cell, cell.isScratch = false →
        final.2.registers.get cell = machine.registers.get cell := by
  intro final
  obtain ⟨index, kind, traps⟩ : ∃ index kind, (Datapath.run
      { machine := machine, signals := .quiet } 0 (entryPrelude vector)).1 =
        .ok (.trapped index kind) := by
    obtain ⟨ending, ends⟩ := Datapath.exists_ending { machine := machine, signals := .quiet } 0
      (entryPrelude vector)
    by_cases trapped : ∃ index kind, ending = .trapped index kind
    · obtain ⟨index, kind, rfl⟩ := trapped
      exact ⟨index, kind, ends⟩
    · have untrapped : ∀ index kind, (Datapath.run { machine := machine, signals := .quiet } 0
          (entryPrelude vector ++ [])).1 ≠ .ok (.trapped index kind) := by
        intro index kind traps
        rw [List.append_nil, ends] at traps
        exact trapped ⟨index, kind, Except.ok.inj traps⟩
      obtain ⟨start, status, after, words⟩ := vectorWords_of_not_trapped untrapped
      exact absurd (congrArg Prod.fst words) (noWords start status)
  have early : final = Datapath.run { machine := machine, signals := .quiet } 0
      (entryPrelude vector) :=
    Datapath.run_append_of_trapped traps
  rw [early]
  refine ⟨⟨index, kind, traps⟩, ?_⟩
  intro cell visible
  apply Datapath.get_run_of_scratch _ _ visible
  · simp [entryPrelude, MicroOp.destinations, Reg.isGeneral, Reg.number]
  · simp [entryPrelude]

/-- The status word of `machine` has been pushed, and with it `pushed` may have
left kernel mode again. -/
structure PushedStatus (machine pushed : Machine δ) : Prop where
  permits : machine.mmu.Permits .kernel .write (machine.stackPointer .kernel - 2)
  psw : pushed.psw =
    if machine.mmu.destination .kernel .write (machine.stackPointer .kernel - 2) = pswAddress then
      machine.psw
    else
      { machine.psw with mode := .kernel }
  pointer : pushed.stackPointer .kernel = machine.stackPointer .kernel - 2
  registers (cell : Cell) : cell.isScratch = false → cell ≠ .stackPointer .kernel →
    pushed.registers.get cell = machine.registers.get cell
  savedPc : pushed.reg .t1 = machine.pc

/-- What comes after the first push. -/
def afterStatus (vector : Word) : List MicroOp :=
  [.step .sp (-2), .store .sp .t1 .word .data] ++ entryTail vector

section FirstPush

variable {start status : Word} {switched lowered : Machine δ}

omit [Bus δ] in
/-- The first push finds the kernel stack pointer as it was. -/
theorem registers_of_lowered (ready : machine.Switched start status switched)
    (low : Datapath.Lowered { machine := switched, signals := .quiet } lowered) :
    lowered.registers =
      switched.registers.set (.stackPointer .kernel) (machine.stackPointer .kernel - 2) := by
  have kernel : switched.psw.mode = .kernel := by
    rw [ready.psw]
  have pointer : switched.stackPointer .kernel = machine.stackPointer .kernel :=
    ready.registers _ rfl
  rw [low.registers, kernel, pointer]

/-- Whether it is refused or not, the store of the first push leaves alone all
that a program sees of the registers but the kernel stack pointer. -/
theorem get_of_firstStore (ready : machine.Switched start status switched)
    (low : Datapath.Lowered { machine := switched, signals := .quiet } lowered)
    (address value : Word) {cell : Cell} (visible : cell.isScratch = false)
    (notKernel : cell ≠ .stackPointer .kernel) :
    (lowered.write .kernel address value .word).2.registers.get cell =
      machine.registers.get cell := by
  rw [registers_write, registers_of_lowered ready low, RegisterFile.get_set,
    if_neg notKernel.symm, ready.registers cell visible]

/-- A refused store was none to the status word. -/
theorem not_divertsPush_of_refused {refused : Machine δ} {error : AccessError}
    (rights : machine.mmu.SameRights lowered.mmu)
    (writes : lowered.write .kernel (machine.stackPointer .kernel - 2) machine.psw.bits .word =
      (.error error, refused)) : ¬ machine.DivertsPush vector := by
  intro diverts
  rw [write_eq_storePsw ((rights.permits_iff _ _ _).mpr diverts.permits)
    ((rights.destination _ _ _).trans diverts.lands)] at writes
  simp at writes

/-- A store of the interrupted status word brings it back where it lands on the
status word, and leaves kernel mode elsewhere. -/
theorem psw_of_firstStore {pushed : Machine δ} (ready : machine.Switched start status switched)
    (low : Datapath.Lowered { machine := switched, signals := .quiet } lowered)
    (rights : machine.mmu.SameRights lowered.mmu)
    (writes : lowered.write .kernel (machine.stackPointer .kernel - 2) machine.psw.bits .word =
      (.ok (), pushed)) :
    pushed.psw =
      if machine.mmu.destination .kernel .write (machine.stackPointer .kernel - 2) = pswAddress then
        machine.psw
      else
        { machine.psw with mode := .kernel } := by
  have same : lowered.psw = { machine.psw with mode := .kernel } := low.psw.trans ready.psw
  rw [← rights.destination]
  split
  · rename_i lands
    have accessed := lowered.accessed_translate .kernel .write (machine.stackPointer .kernel - 2)
    rw [write_eq_storePsw (write_eq_ok_iff.mp writes).2.1 lands] at writes
    cases writes
    change { Psw.ofBits machine.psw.bits with
      trace := (lowered.translate .kernel .write (machine.stackPointer .kernel - 2)).2.psw.trace } =
        machine.psw
    rw [accessed.psw, same, Psw.ofBits_bits]
  · rename_i elsewhere
    have kept : (lowered.write .kernel (machine.stackPointer .kernel - 2) machine.psw.bits
        .word).2.psw = lowered.psw := psw_write_of_ne elsewhere
    rw [writes] at kept
    exact kept.trans same

theorem pushedStatus_of_firstStore {pushed : Machine δ}
    (ready : machine.Switched start status switched)
    (low : Datapath.Lowered { machine := switched, signals := .quiet } lowered)
    (rights : machine.mmu.SameRights lowered.mmu)
    (writes : lowered.write .kernel (machine.stackPointer .kernel - 2) machine.psw.bits .word =
      (.ok (), pushed)) : machine.PushedStatus pushed := by
  have registers : pushed.registers =
      switched.registers.set (.stackPointer .kernel) (machine.stackPointer .kernel - 2) := by
    have kept := lowered.registers_write .kernel (machine.stackPointer .kernel - 2)
      machine.psw.bits .word
    rw [writes] at kept
    exact kept.trans (registers_of_lowered ready low)
  constructor
  · exact (rights.permits_iff _ _ _).mp (write_eq_ok_iff.mp writes).2.1
  · exact psw_of_firstStore ready low rights writes
  · change pushed.registers.get (.stackPointer .kernel) = _
    rw [registers, RegisterFile.get_set, if_pos rfl]
  · intro cell visible notKernel
    have kept := get_of_firstStore ready low (machine.stackPointer .kernel - 2) machine.psw.bits
      visible notKernel
    rw [writes] at kept
    exact kept
  · have saved := ready.savedPc
    change switched.registers.get (.scratch 7) = _ at saved
    change pushed.registers.get (.scratch 7) = _
    rw [registers, RegisterFile.get_set, if_neg (by simp), saved]

/-- A try that reads the words at its vector traps at its first push, which then
does not reach the status word, or goes on with the second. -/
theorem firstPush_cases (words : (machine.vectorWords vector).1 = .ok (start, status)) :
    let final := Datapath.run { machine := machine, signals := .quiet } 0 (entryProgram vector)
    (¬ machine.DivertsPush vector ∧ (∃ index kind, final.1 = .ok (.trapped index kind)) ∧
      ∀ cell : Cell, cell.isScratch = false → cell ≠ .stackPointer .kernel →
        final.2.registers.get cell = machine.registers.get cell) ∨
    ∃ pushed, machine.PushedStatus pushed ∧
      final = Datapath.run { machine := pushed, signals := .quiet } 9 (afterStatus vector) ∧
      machine.entryStores vector =
        { mode := .kernel
          address := machine.stackPointer .kernel - 2
          value := machine.psw.bits
          width := .word } ::
          Datapath.stores { machine := pushed, signals := .quiet } (afterStatus vector) := by
  intro final
  -- By definition the entry program is its prelude, the two pushes and its tail.
  obtain ⟨switched, ready, rights, split⟩ := run_of_vectorWords words
  have kernel : switched.psw.mode = .kernel := by
    rw [ready.psw]
  have pointer : switched.stackPointer .kernel = machine.stackPointer .kernel :=
    ready.registers _ rfl
  have value : Datapath.reg { machine := switched, signals := .quiet } .t0 = machine.psw.bits :=
    ready.savedStatus
  obtain ⟨lowered, low, outcome⟩ := Datapath.run_push { machine := switched, signals := .quiet }
    (by decide : Reg.t0 ≠ .sp) 7 (afterStatus vector)
  have allowed := rights.trans low.rights
  dsimp only at outcome allowed
  rw [kernel, pointer, value] at outcome
  obtain ⟨ran, logged⟩ := split ([.step .sp (-2), .store .sp .t0 .word .data] ++ afterStatus vector)
  rcases outcome with ⟨error, refused, writes, traps⟩ | ⟨pushed, writes, goesOn, logs⟩
  · left
    have ends : final = (.ok (.trapped 8 error.trapClass), refused.raise error.trapClass) :=
      ran.trans traps
    refine ⟨not_divertsPush_of_refused allowed writes,
      ⟨8, error.trapClass, congrArg Prod.fst ends⟩, ?_⟩
    intro cell visible notKernel
    have kept := get_of_firstStore ready low (machine.stackPointer .kernel - 2) machine.psw.bits
      visible notKernel
    rw [writes] at kept
    rw [ends]
    exact kept
  · right
    exact ⟨pushed, pushedStatus_of_firstStore ready low allowed writes, ran.trans goesOn,
      logged.trans logs⟩

end FirstPush

/-- A try whose first push lands on the status word lowers the stack pointer of
the interrupted mode, whether it traps or not. -/
theorem registers_of_divertsPush (diverts : machine.DivertsPush vector) {cell : Cell}
    (visible : cell.isScratch = false) (notPc : cell ≠ .programCounter)
    (notKernel : cell ≠ .stackPointer .kernel) :
    (Datapath.run { machine := machine, signals := .quiet } 0
        (entryProgram vector)).2.registers.get cell =
      if cell = .stackPointer machine.psw.mode then machine.stackPointer machine.psw.mode - 2
      else machine.registers.get cell := by
  obtain ⟨start, status, words⟩ := diverts.words
  rcases firstPush_cases words with ⟨stays, -⟩ | ⟨pushed, status, ran, -⟩
  · exact absurd diverts stays
  · have samePsw : pushed.psw = machine.psw := status.psw.trans (if_pos diverts.lands)
    have interrupted : pushed.stackPointer machine.psw.mode =
        machine.stackPointer machine.psw.mode := status.registers _ rfl (by simp [diverts.outside])
    have lowers := (run_secondPush { machine := pushed, signals := .quiet } 9 vector).1 cell notPc
    dsimp only at lowers
    rw [samePsw, RegisterFile.get_set, interrupted, status.registers cell visible notKernel]
      at lowers
    rw [ran, afterStatus, lowers]
    by_cases here : cell = .stackPointer machine.psw.mode
    · rw [if_pos here.symm, if_pos here]
    · rw [if_neg (Ne.symm here), if_neg here]

/-- Any other try leaves the stack pointers of the other modes and the general
registers alone, and its stores go to the kernel stack. -/
theorem entry_of_not_divertsPush (stays : ¬ machine.DivertsPush vector) :
    let final := Datapath.run { machine := machine, signals := .quiet } 0 (entryProgram vector)
    (∀ cell : Cell, cell.isScratch = false → cell ≠ .programCounter →
      cell ≠ .stackPointer .kernel →
        final.2.registers.get cell = machine.registers.get cell) ∧
    ((∀ index kind, final.1 ≠ .ok (.trapped index kind)) →
      machine.entryStores vector =
        kernelPushes (machine.stackPointer .kernel) machine.psw.bits machine.pc) := by
  intro final
  by_cases words : ∃ start status, (machine.vectorWords vector).1 = .ok (start, status)
  · obtain ⟨start, status, read⟩ := words
    rcases firstPush_cases read with
      ⟨-, ⟨index, kind, traps⟩, registers⟩ | ⟨pushed, status, ran, logged⟩
    · exact ⟨fun cell visible _ => registers cell visible,
        fun untrapped => absurd traps (untrapped index kind)⟩
    · have kernel : pushed.psw.mode = .kernel := by
        rw [status.psw]
        split
        · rename_i lands
          apply Decidable.byContradiction
          intro outside
          exact stays ⟨outside, ⟨start, _, read⟩, status.permits, lands⟩
        · rfl
      have lowered : pushed.stackPointer .kernel - 2 = machine.stackPointer .kernel - 4 := by
        rw [status.pointer]
        bv_omega
      obtain ⟨registers, stores⟩ := run_secondPush { machine := pushed, signals := .quiet } 9 vector
      dsimp only at registers stores
      rw [kernel, lowered] at registers stores
      constructor
      · intro cell visible notPc notKernel
        have kept := registers cell notPc
        rw [RegisterFile.get_set, if_neg notKernel.symm, status.registers cell visible notKernel]
          at kept
        exact (congrArg (fun run : Except MachineError Ending × Machine δ =>
          run.2.registers.get cell) ran).trans kept
      · intro untrapped
        have onward := stores fun index kind traps =>
          untrapped index kind ((congrArg Prod.fst ran).trans traps)
        have savedPc : Datapath.reg { machine := pushed, signals := .quiet } .t1 = machine.pc :=
          status.savedPc
        rw [logged, afterStatus, onward, savedPc, kernelPushes]
  · obtain ⟨⟨index, kind, traps⟩, registers⟩ := registers_of_no_vectorWords
      fun start status read => words ⟨start, status, read⟩
    exact ⟨fun cell visible _ _ => registers cell visible,
      fun untrapped => absurd traps (untrapped index kind)⟩

/-! ## Service -/

/-- The emergency stack is nowhere near the status word. -/
theorem not_divertsPush_of_emergencyStack
    (pointer : machine.stackPointer .kernel = emergencyStack) : ¬ machine.DivertsPush vector := by
  intro diverts
  have inBlock := machine.mmu.toNat_destination_mod .kernel .write
    (machine.stackPointer .kernel - 2)
  rw [diverts.lands, pointer] at inBlock
  exact absurd inBlock (by decide)

variable {acknowledged : Acknowledged δ} {after : Machine δ}

/-- A handler is entered at the first try, or after its trap at the second. -/
theorem service_cases (chosen : machine.acknowledge? = some acknowledged)
    (served : machine.service = (.ok (some vector), after)) :
    let first := acknowledged.machine.execute (entryPipeline acknowledged.vector)
    (first.trap? = none ∧ vector = acknowledged.vector ∧ after = first.machine) ∨
    ∃ kind, first.trap? = some kind ∧ machine.MayRetry ∧ vector = emergencyVector ∧
      let second := (first.machine.retrying machine kind).execute (entryPipeline vector)
      second.trap? = none ∧ after = second.machine := by
  intro first
  cases outcome : first.trap? with
  | none =>
      cases (service_of_entered chosen outcome).symm.trans served
      exact .inl ⟨rfl, rfl, rfl⟩
  | some kind =>
      obtain ⟨retried, stopped⟩ := service_of_failed chosen outcome
      rw [served] at stopped
      have may : machine.MayRetry := by
        apply Classical.byContradiction
        intro mayNot
        exact absurd (stopped (.inl mayNot)).1 (by simp)
      have entered : ((first.machine.retrying machine kind).execute
          (entryPipeline emergencyVector)).trap? = none := by
        apply Decidable.byContradiction
        intro trapped
        exact absurd (stopped (.inr trapped)).1 (by simp)
      cases (retried may entered).symm.trans served
      exact .inr ⟨kind, rfl, may, rfl, entered, rfl⟩

/-- An execution that came to no trap is a run that does not trap. -/
theorem entry_of_execute (stays : ¬ machine.DivertsPush vector)
    (entered : (machine.execute (entryPipeline vector)).trap? = none) :
    (∀ cell : Cell, cell.isScratch = false → cell ≠ .programCounter →
      cell ≠ .stackPointer .kernel →
        (machine.execute (entryPipeline vector)).machine.registers.get cell =
          machine.registers.get cell) ∧
    machine.entryStores vector =
      kernelPushes (machine.stackPointer .kernel) machine.psw.bits machine.pc := by
  obtain ⟨registers, stores⟩ := entry_of_not_divertsPush stays
  exact ⟨registers, stores (trap?_eq_none_iff.mp entered)⟩

/-- The first try decides what becomes of the other stack pointers and of the
general registers. -/
theorem registers_of_service (chosen : machine.acknowledge? = some acknowledged)
    (served : machine.service = (.ok (some vector), after)) {cell : Cell}
    (visible : cell.isScratch = false) (notPc : cell ≠ .programCounter)
    (notKernel : cell ≠ .stackPointer .kernel) :
    after.registers.get cell =
      (acknowledged.machine.execute (entryPipeline acknowledged.vector)).machine.registers.get
        cell := by
  rcases service_cases chosen served with ⟨-, -, rfl⟩ | ⟨kind, -, -, -, entered, rfl⟩
  · rfl
  · have pointer : (retrying (acknowledged.machine.execute
        (entryPipeline acknowledged.vector)).machine machine kind).stackPointer .kernel =
          emergencyStack := by
      simp [retrying, stackPointer]
    rw [(entry_of_execute (not_divertsPush_of_emergencyStack pointer) entered).1 cell visible
      notPc notKernel]
    simp [retrying, Ne.symm notPc, Ne.symm notKernel]

/-- Service of an exception whose push is not diverted keeps every register but
the program counter and the kernel stack pointer. -/
theorem registers_of_service_of_not_divertsPush
    (chosen : machine.acknowledge? = some acknowledged)
    (served : machine.service = (.ok (some vector), after))
    (stays : ¬ acknowledged.machine.DivertsPush acknowledged.vector) {cell : Cell}
    (visible : cell.isScratch = false) (notPc : cell ≠ .programCounter)
    (notKernel : cell ≠ .stackPointer .kernel) :
    after.registers.get cell = machine.registers.get cell := by
  rw [registers_of_service chosen served visible notPc notKernel,
    ← (acknowledge?_context chosen).2 cell notKernel]
  exact (entry_of_not_divertsPush stays).1 cell visible notPc notKernel

/-- Otherwise it lowers the stack pointer of the interrupted mode as well. -/
theorem registers_of_service_of_divertsPush
    (chosen : machine.acknowledge? = some acknowledged)
    (served : machine.service = (.ok (some vector), after))
    (diverts : acknowledged.machine.DivertsPush acknowledged.vector) {cell : Cell}
    (visible : cell.isScratch = false) (notPc : cell ≠ .programCounter)
    (notKernel : cell ≠ .stackPointer .kernel) :
    after.registers.get cell =
      if cell = .stackPointer machine.psw.mode then machine.stackPointer machine.psw.mode - 2
      else machine.registers.get cell := by
  obtain ⟨psw, context⟩ := acknowledge?_context chosen
  have outside := diverts.outside
  rw [psw] at outside
  have pointer : acknowledged.machine.stackPointer machine.psw.mode =
      machine.stackPointer machine.psw.mode := context _ (by simp [outside])
  have entry := registers_of_divertsPush diverts visible notPc notKernel
  rw [psw, pointer, context cell notKernel] at entry
  rw [registers_of_service chosen served visible notPc notKernel]
  exact entry

/-- The machine from which the last try to serve an exception starts. -/
def lastTry (interrupted : Machine δ) (acknowledged : Acknowledged δ) : Machine δ :=
  let first := acknowledged.machine.execute (entryPipeline acknowledged.vector)
  match first.trap? with
  | none => acknowledged.machine
  | some kind => first.machine.retrying interrupted kind

/-- The last try pushes the interrupted context on the kernel stack. -/
theorem entryStores_of_service (chosen : machine.acknowledge? = some acknowledged)
    (served : machine.service = (.ok (some vector), after))
    (stays : ¬ acknowledged.machine.DivertsPush acknowledged.vector) :
    let start := machine.lastTry acknowledged
    start.entryStores vector =
      kernelPushes (start.stackPointer .kernel) machine.psw.bits machine.pc := by
  intro start
  obtain ⟨psw, registers⟩ := acknowledge?_context chosen
  have pc : acknowledged.machine.pc = machine.pc := registers .programCounter (by simp)
  rcases service_cases chosen served with
    ⟨outcome, rfl, -⟩ | ⟨kind, outcome, -, -, entered, -⟩
  · have isFirst : start = acknowledged.machine := by
      simp only [start, lastTry, outcome]
    rw [isFirst, (entry_of_execute stays outcome).2, psw, pc]
  · have isSecond : start = retrying (acknowledged.machine.execute
        (entryPipeline acknowledged.vector)).machine machine kind := by
      simp only [start, lastTry, outcome]
    have pointer : start.stackPointer .kernel = emergencyStack := by
      simp [isSecond, retrying, stackPointer]
    rw [← isSecond] at entered
    rw [(entry_of_execute (not_divertsPush_of_emergencyStack pointer) entered).2, isSecond]
    simp [retrying, Machine.pc]

/-- Entry to a handler leaves alone the general registers and the stack pointers
of modes that were not interrupted. It also leaves alone that of the interrupted
mode, and pushes both words on the kernel stack, except when its first push
lands on the status word: then the stack pointer of the interrupted mode is
lowered instead. -/
theorem kernelStack_alone_iff (chosen : machine.acknowledge? = some acknowledged)
    (served : machine.service = (.ok (some vector), after)) :
    let start := machine.lastTry acknowledged
    let diverts := acknowledged.machine.DivertsPush acknowledged.vector
    (∀ alternate number, after.registers.get (.general alternate number) =
      machine.registers.get (.general alternate number)) ∧
    (∀ mode, mode ≠ .kernel → mode ≠ machine.psw.mode →
      after.stackPointer mode = machine.stackPointer mode) ∧
    (diverts → after.stackPointer machine.psw.mode =
      machine.stackPointer machine.psw.mode - 2) ∧
    (((∀ mode, mode ≠ .kernel → after.stackPointer mode = machine.stackPointer mode) ∧
        start.entryStores vector =
          kernelPushes (start.stackPointer .kernel) machine.psw.bits machine.pc) ↔ ¬ diverts) := by
  intro start diverts
  have outside (lands : diverts) : machine.psw.mode ≠ .kernel := by
    rw [← (acknowledge?_context chosen).1]
    exact lands.outside
  have interrupted (lands : diverts) :
      after.stackPointer machine.psw.mode = machine.stackPointer machine.psw.mode - 2 := by
    have lowered := registers_of_service_of_divertsPush chosen served lands
      (rfl : (Cell.stackPointer machine.psw.mode).isScratch = false) (by simp)
      (by simp [outside lands])
    exact lowered.trans (if_pos rfl)
  refine ⟨?_, ?_, interrupted, ?_⟩
  · intro alternate number
    by_cases lands : diverts
    · rw [registers_of_service_of_divertsPush chosen served lands rfl (by simp) (by simp),
        if_neg (by simp)]
    · exact registers_of_service_of_not_divertsPush chosen served lands rfl (by simp) (by simp)
  · intro mode notKernel notInterrupted
    by_cases lands : diverts
    · have lowered := registers_of_service_of_divertsPush chosen served lands
        (rfl : (Cell.stackPointer mode).isScratch = false) (by simp) (by simp [notKernel])
      exact lowered.trans (if_neg (by simp [notInterrupted]))
    · exact registers_of_service_of_not_divertsPush chosen served lands rfl (by simp)
        (by simp [notKernel])
  · constructor
    · rintro ⟨pointers, -⟩ lands
      have unmoved := pointers _ (outside lands)
      rw [interrupted lands] at unmoved
      bv_omega
    · intro stays
      refine ⟨?_, entryStores_of_service chosen served stays⟩
      intro mode notKernel
      exact registers_of_service_of_not_divertsPush chosen served stays rfl (by simp)
        (by simp [notKernel])

/-- A user program that an EMT has interrupted while the kernel stack is empty, in
memory as it is without relocation. -/
def emptyKernelStack : Machine NoDevices :=
  { ofConfig Config.default .none with
    registers := (RegisterFile.cleared.set .programCounter 0o2000).set (.stackPointer .user) 0o20
    psw := .ofBits 0o140000
    ram :=
      { bytes := #[0, 0, 0, 0, 0, 0, 0, 0, 0, 0, 0, 0, 0, 0, 0, 0, 0, 0, 0, 0, 0, 0, 0, 0, 0, 6,
          0o340, 0] }
    traps := TrapSet.none.insert .emt }

/-- The status word is pushed on itself, and the program counter on the stack of
the user program. -/
theorem divertsPush_emptyKernelStack :
    emptyKernelStack.service.1 = .ok (some 0o30) ∧
      emptyKernelStack.service.2.stackPointer .user = 0o16 ∧
      ¬ ((∀ mode, mode ≠ .kernel →
          emptyKernelStack.service.2.stackPointer mode = emptyKernelStack.stackPointer mode) ∧
        (emptyKernelStack.lastTry
          { vector := 0o30
            retriable := true
            machine := { emptyKernelStack with traps := .none } }).entryStores 0o30 =
          kernelPushes 0 0o140000 0o2000) := by
  have chosen : emptyKernelStack.acknowledge? =
      some
        { vector := 0o30
          retriable := true
          machine := { emptyKernelStack with traps := .none } } := rfl
  have served : emptyKernelStack.service =
      (.ok (some 0o30), emptyKernelStack.service.2) := Prod.ext rfl rfl
  obtain ⟨-, -, interrupted, alone⟩ := kernelStack_alone_iff chosen served
  have diverts : DivertsPush { emptyKernelStack with traps := .none } 0o30 := by
    refine ⟨by decide, ⟨0o3000, 0o340, rfl⟩, ?_, by decide⟩
    intro on
    contradiction
  exact ⟨rfl, interrupted diverts, fun both => alone.mp both diverts⟩

end Machine

end Pdp11
