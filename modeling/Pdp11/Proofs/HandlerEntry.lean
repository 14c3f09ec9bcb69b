import Pdp11.Machine.Service
import Pdp11.Proofs.KernelStack

/-!
# Entry to a handler

The entry program reads the two words at the vector, switches to kernel mode
and pushes the interrupted status word and program counter. If none of its
accesses fails, the handler starts at the first word with the second as its
status, and what was interrupted lies on the kernel stack.
-/

namespace Pdp11

universe u

variable {δ : Type u} [Bus δ]

namespace Machine

/-- The two words at `vector`, read as kernel data one after the other. -/
def vectorWords (machine : Machine δ) (vector : Word) :
    Except AccessError (Word × Word) × Machine δ :=
  match machine.read .kernel .read vector .word with
  | (.error error, machine) => (.error error, machine)
  | (.ok start, machine) =>
    match machine.read .kernel .read (vector + 2) .word with
    | (.error error, machine) => (.error error, machine)
    | (.ok status, machine) => (.ok (start, status), machine)

theorem vectorWords_eq_ok_iff {machine after : Machine δ} {vector start status : Word} :
    machine.vectorWords vector = (.ok (start, status), after) ↔
      ∃ middle, machine.read .kernel .read vector .word = (.ok start, middle) ∧
        middle.read .kernel .read (vector + 2) .word = (.ok status, after) := by
  unfold vectorWords
  constructor
  · intro reads
    split at reads
    · simp at reads
    · rename_i outcome
      split at reads
      · simp at reads
      · rename_i second
        cases reads
        exact ⟨_, outcome, second⟩
  · rintro ⟨middle, first, second⟩
    rw [first]
    dsimp only
    rw [second]

/-- The machine when a handler is about to be entered: the words at the vector
are read, and kernel mode has begun. -/
structure Switched (interrupted : Machine δ) (start status : Word) (current : Machine δ) :
    Prop where
  psw : current.psw = { interrupted.psw with mode := .kernel }
  mapping : interrupted.mmu.SameMapping current.mmu
  ram : current.ram = interrupted.ram
  registers (cell : Cell) : cell.isScratch = false →
    current.registers.get cell = interrupted.registers.get cell
  savedStatus : current.reg .t0 = interrupted.psw.bits
  savedPc : current.reg .t1 = interrupted.pc
  start : current.reg .s0 = start
  status : current.reg .s2 = status

/-- The registers with the interrupted status word and program counter set
aside, and the vector named. -/
def savedRegisters (machine : Machine δ) (vector : Word) : RegisterFile :=
  ((machine.registers.set (.scratch 6) machine.psw.bits).set (.scratch 7) machine.pc).set
    (.scratch 1) vector

theorem steps_save (machine : Machine δ) (vector : Word) :
    Datapath.Steps { machine := machine, signals := .quiet }
      [.readPsw .t0, .move .t1 .pc, .loadImm .s1 vector]
      { machine := { machine with registers := machine.savedRegisters vector }
        signals := .quiet } := by
  let saved := machine.setReg .t0 machine.psw.bits
  have savedPc : saved.reg .pc = machine.pc := by
    rw [reg_setReg, if_neg (by decide)]
    rfl
  have second : Datapath.Step { machine := saved, signals := .quiet } (.move .t1 .pc)
      { machine := saved.setReg .t1 machine.pc, signals := .quiet } := by
    rw [← savedPc]
    exact ⟨rfl, rfl⟩
  exact .cons ⟨rfl, rfl⟩ (.cons second (.single ⟨rfl, rfl⟩))

theorem loadSelected_kernelData (machine : Machine δ) (registers : RegisterFile)
    (address : Word) :
    { machine with registers := registers }.loadSelected address .word .kernelData =
      ((machine.read .kernel .read address .word).1,
        { (machine.read .kernel .read address .word).2 with registers := registers }) :=
  read_withRegisters machine registers .kernel .read address .word

theorem step_kernelLoad {machine after : Machine δ} {registers : RegisterFile}
    {dst address : Reg} {word : Word} {signals : Signals}
    (reads : machine.read .kernel .read ({ machine with registers := registers }.reg address)
      .word = (.ok word, after)) :
    Datapath.Step { machine := { machine with registers := registers }, signals := signals }
      (.load dst address .word .kernelData)
      { machine := { after with registers := registers }.setReg dst word
        signals := signals } := by
  apply Datapath.step_load
  change { machine with registers := registers }.loadSelected
    ({ machine with registers := registers }.reg address) .word .kernelData = _
  rw [loadSelected_kernelData, reads]

/-- A load of kernel data that does not trap reads a word. -/
theorem read_of_not_trapped {machine : Machine δ} {registers : RegisterFile}
    {dst address : Reg} {index : Nat} {rest : List MicroOp} {signals : Signals}
    (untrapped : ∀ position kind, (Datapath.run
      { machine := { machine with registers := registers }, signals := signals } index
      (.load dst address .word .kernelData :: rest)).1 ≠ .ok (.trapped position kind)) :
    ∃ word after, machine.read .kernel .read
        ({ machine with registers := registers }.reg address) .word = (.ok word, after) := by
  obtain ⟨word, loaded, loads⟩ := Datapath.load_of_not_trapped untrapped
  change { machine with registers := registers }.loadSelected
    ({ machine with registers := registers }.reg address) .word .kernelData = _ at loads
  rw [loadSelected_kernelData] at loads
  exact ⟨word, _, Prod.ext (Prod.mk.inj loads).1 rfl⟩

/-- The part of the entry program that comes before the pushes. -/
def entryPrelude (vector : Word) : List MicroOp :=
  [.readPsw .t0, .move .t1 .pc, .loadImm .s1 vector, .load .s0 .s1 .word .kernelData,
    .addImm .s1 .s1 2, .load .s2 .s1 .word .kernelData, .forceKernel]

/-- The registers once the first word at the vector is read and the second is
named. -/
def namedRegisters (machine : Machine δ) (vector start : Word) : RegisterFile :=
  ((machine.savedRegisters vector).set (.scratch 0) start).set (.scratch 1) (vector + 2)

omit [Bus δ] in
theorem savedRegisters_vector (machine : Machine δ) (vector : Word) :
    (machine.savedRegisters vector).get (.scratch 1) = vector := by
  simp [savedRegisters]

theorem steps_firstWord {machine middle : Machine δ} {vector start : Word}
    (reads : machine.read .kernel .read vector .word = (.ok start, middle)) :
    Datapath.Steps { machine := machine, signals := .quiet }
      [.readPsw .t0, .move .t1 .pc, .loadImm .s1 vector, .load .s0 .s1 .word .kernelData,
        .addImm .s1 .s1 2]
      { machine := { middle with registers := machine.namedRegisters vector start }
        signals := .quiet } := by
  let begun := (machine.savedRegisters vector).set (.scratch 0) start
  have kept : begun.get (.scratch 1) = vector := by
    simp [begun, savedRegisters_vector]
  have named : Datapath.Step
      { machine := { middle with registers := begun }, signals := .quiet } (.addImm .s1 .s1 2)
      { machine := { middle with registers := machine.namedRegisters vector start }
        signals := .quiet } := by
    have value : begun.get (.scratch 1) + 2 = vector + 2 := by
      rw [kept]
    rw [namedRegisters, ← value]
    exact ⟨rfl, rfl⟩
  rw [← machine.savedRegisters_vector vector] at reads
  exact (machine.steps_save vector).append (.cons (step_kernelLoad reads) (.single named))

/-- An entry that does not trap reads the words at its vector. -/
theorem vectorWords_of_not_trapped {machine : Machine δ} {vector : Word} {rest : List MicroOp}
    (untrapped : ∀ position kind, (Datapath.run { machine := machine, signals := .quiet } 0
      (entryPrelude vector ++ rest)).1 ≠ .ok (.trapped position kind)) :
    ∃ start status after, machine.vectorWords vector = (.ok (start, status), after) := by
  have split : entryPrelude vector ++ rest =
      [.readPsw .t0, .move .t1 .pc, .loadImm .s1 vector] ++
        .load .s0 .s1 .word .kernelData :: .addImm .s1 .s1 2 ::
          .load .s2 .s1 .word .kernelData :: .forceKernel :: rest := rfl
  have saved := untrapped
  rw [split, (machine.steps_save vector).run_append] at saved
  obtain ⟨start, middle, firstRead⟩ := read_of_not_trapped saved
  have firstAddress : (machine.savedRegisters vector).get (.scratch 1) = vector :=
    machine.savedRegisters_vector vector
  change machine.read .kernel .read ((machine.savedRegisters vector).get (.scratch 1)) .word =
    (.ok start, middle) at firstRead
  rw [firstAddress] at firstRead
  have named := untrapped
  have again : entryPrelude vector ++ rest =
      [.readPsw .t0, .move .t1 .pc, .loadImm .s1 vector, .load .s0 .s1 .word .kernelData,
        .addImm .s1 .s1 2] ++ .load .s2 .s1 .word .kernelData :: .forceKernel :: rest := rfl
  rw [again, (steps_firstWord firstRead).run_append] at named
  obtain ⟨status, after, secondRead⟩ := read_of_not_trapped named
  have secondAddress : (machine.namedRegisters vector start).get (.scratch 1) = vector + 2 := by
    simp [namedRegisters]
  change middle.read .kernel .read ((machine.namedRegisters vector start).get (.scratch 1)) .word =
    (.ok status, after) at secondRead
  rw [secondAddress] at secondRead
  exact ⟨start, status, after, vectorWords_eq_ok_iff.mpr ⟨middle, firstRead, secondRead⟩⟩

/-- An entry that reads the words at its vector comes to its pushes. -/
theorem steps_entryPrelude {machine after : Machine δ} {vector start status : Word}
    (words : machine.vectorWords vector = (.ok (start, status), after)) :
    ∃ switched, Datapath.Steps { machine := machine, signals := .quiet } (entryPrelude vector)
        { machine := switched, signals := .quiet } ∧
      machine.Switched start status switched := by
  obtain ⟨middle, firstRead, secondRead⟩ := vectorWords_eq_ok_iff.mp words
  let named := machine.namedRegisters vector start
  have secondAddress : named.get (.scratch 1) = vector + 2 := by
    simp [named, namedRegisters]
  have secondLoad := secondRead
  rw [← secondAddress] at secondLoad
  refine ⟨{ after with
      registers := named.set (.scratch 2) status
      psw := { after.psw with mode := .kernel } }, ?_, ?_⟩
  · exact (steps_firstWord firstRead).append
      (.cons (step_kernelLoad secondLoad) (.single ⟨rfl, rfl⟩))
  · have accessed := machine.accessed_read .kernel .read vector .word
    have accessedAgain := middle.accessed_read .kernel .read (vector + 2) .word
    rw [firstRead] at accessed
    rw [secondRead] at accessedAgain
    have psw : after.psw = machine.psw := accessedAgain.psw.trans accessed.psw
    constructor
    · exact congrArg (fun psw : Psw => { psw with mode := .kernel }) psw
    · exact accessed.mmu.sameMapping.trans accessedAgain.mmu.sameMapping
    · exact accessedAgain.ram.trans accessed.ram
    · intro cell visible
      have apart (number : Fin 8) : Cell.scratch number ≠ cell := by
        rintro rfl
        contradiction
      simp [named, namedRegisters, savedRegisters, apart]
    · change (named.set (.scratch 2) status).get (.scratch 6) = _
      simp [named, namedRegisters, savedRegisters]
    · change (named.set (.scratch 2) status).get (.scratch 7) = _
      simp [named, namedRegisters, savedRegisters]
    · change (named.set (.scratch 2) status).get (.scratch 0) = _
      simp [named, namedRegisters]
    · change (named.set (.scratch 2) status).get (.scratch 2) = _
      simp

/-- The pushes of the entry program. -/
def entryPushes : List MicroOp :=
  [.step .sp (-2), .store .sp .t0 .word .data] ++ [.step .sp (-2), .store .sp .t1 .word .data]

/-- What was interrupted has been pushed. -/
structure Saved (interrupted switched pushed : Machine δ) : Prop where
  registers : pushed.registers =
    (switched.registers.set (.stackPointer .kernel) (interrupted.stackPointer .kernel - 2)).set
      (.stackPointer .kernel) (interrupted.stackPointer .kernel - 4)
  pcHeld : pushed.KernelHolds (interrupted.stackPointer .kernel - 4) interrupted.pc
  statusHeld : pushed.KernelHolds (interrupted.stackPointer .kernel - 2) interrupted.psw.bits

theorem steps_entryPushes {interrupted switched : Machine δ} {start status : Word} {index : Nat}
    {rest : List MicroOp} (ready : interrupted.Switched start status switched)
    (statusInRam : interrupted.KernelInRam (interrupted.stackPointer .kernel - 2))
    (pcInRam : interrupted.KernelInRam (interrupted.stackPointer .kernel - 4))
    (untrapped : ∀ position kind, (Datapath.run { machine := switched, signals := .quiet } index
      (entryPushes ++ rest)).1 ≠ .ok (.trapped position kind)) :
    ∃ pushed, Datapath.Steps { machine := switched, signals := .quiet } entryPushes pushed ∧
      interrupted.Saved switched pushed.machine := by
  have kernel : switched.psw.mode = .kernel := by
    rw [ready.psw]
  have pointer : switched.stackPointer .kernel = interrupted.stackPointer .kernel :=
    ready.registers _ rfl
  rw [← pointer] at statusInRam pcInRam
  have statusPlace := statusInRam.of_sameMapping ready.mapping (congrArg Ram.size ready.ram)
  rw [entryPushes, List.append_assoc] at untrapped
  obtain ⟨first, firstPush, statusPushed⟩ :=
    Datapath.push_of_not_trapped { machine := switched, signals := .quiet } (by decide) kernel
      statusPlace untrapped
  rw [firstPush.run_append] at untrapped
  have lowered : first.machine.stackPointer .kernel - 2 = switched.stackPointer .kernel - 4 := by
    rw [stackPointer, statusPushed.registers, RegisterFile.get_set, if_pos rfl]
    bv_omega
  have pcPlace := pcInRam.of_sameMapping (ready.mapping.trans statusPushed.mapping)
    (statusPushed.size.trans (congrArg Ram.size ready.ram))
  rw [← lowered] at pcPlace
  obtain ⟨second, secondPush, pcPushed⟩ :=
    first.push_of_not_trapped (by decide) (statusPushed.psw ▸ kernel) pcPlace untrapped
  refine ⟨second, firstPush.append secondPush, ?_, ?_, ?_⟩
  · rw [pcPushed.registers, lowered, statusPushed.registers, ← pointer]
  · have held := pcPushed.holds
    have savedPc : first.reg .t1 = interrupted.pc := by
      have saved := ready.savedPc
      change switched.registers.get (.scratch 7) = _ at saved
      change first.machine.registers.get (.scratch 7) = _
      rw [statusPushed.registers, RegisterFile.get_set, if_neg (by simp), saved]
    rw [lowered, pointer, savedPc] at held
    exact held
  · have apart : (first.machine.stackPointer .kernel - 2).toNat % 64 ≠
        (switched.stackPointer .kernel - 2).toNat % 64 := by
      rw [lowered]
      bv_omega
    have held := pcPushed.holds_apart statusPushed.holds apart
    have savedStatus := ready.savedStatus
    change ({ machine := switched, signals := .quiet } : Datapath δ).reg .t0 = _ at savedStatus
    rw [pointer, savedStatus] at held
    exact held

/-! ## The whole entry -/

/-- A try that succeeds ran its program to the end. -/
theorem run_of_tryEntry {interrupted : Machine δ} {vector : Word}
    (entered : (interrupted.tryEntry vector).1 = .ok none) :
    (∀ position kind, (Datapath.run { machine := interrupted, signals := .quiet } 0
      (entryProgram vector)).1 ≠ .ok (.trapped position kind)) ∧
    (interrupted.tryEntry vector).2 =
      (Datapath.run { machine := interrupted, signals := .quiet } 0 (entryProgram vector)).2 := by
  have built : Pipeline.ofOps (entryProgram vector) =
      .ok { ops := entryProgram vector, length_le := by rw [entryProgram_length]; decide } :=
    Pipeline.ofOps_eq_ok_iff.mpr rfl
  unfold tryEntry execute at entered ⊢
  rw [built] at entered ⊢
  dsimp only at entered ⊢
  generalize Datapath.run { machine := interrupted, signals := .quiet } 0 (entryProgram vector) =
    outcome at entered ⊢
  obtain ⟨ending, after⟩ := outcome
  rcases ending with error | (_ | index | ⟨index, kind⟩)
  · contradiction
  · exact ⟨fun _ _ => by simp, rfl⟩
  · exact ⟨fun _ _ => by simp, rfl⟩
  · simp at entered

/-- What was interrupted lies on the kernel stack, and the handler starts as
its vector says. -/
structure Entered (interrupted : Machine δ) (start status : Word) (after : Machine δ) : Prop where
  psw : after.psw = (Psw.ofBits status).entered interrupted.psw
  registers (cell : Cell) : cell.isScratch = false →
    after.registers.get cell =
      if cell = .programCounter then start
      else if cell = .stackPointer .kernel then interrupted.stackPointer .kernel - 4
      else interrupted.registers.get cell
  pcHeld : after.KernelHolds (interrupted.stackPointer .kernel - 4) interrupted.pc
  statusHeld : after.KernelHolds (interrupted.stackPointer .kernel - 2) interrupted.psw.bits

theorem entered_of_tryEntry {interrupted : Machine δ} {vector : Word}
    (entered : (interrupted.tryEntry vector).1 = .ok none)
    (statusInRam : interrupted.KernelInRam (interrupted.stackPointer .kernel - 2))
    (pcInRam : interrupted.KernelInRam (interrupted.stackPointer .kernel - 4)) :
    ∃ start status after, interrupted.vectorWords vector = (.ok (start, status), after) ∧
      Entered interrupted start status (interrupted.tryEntry vector).2 := by
  obtain ⟨untrapped, reached⟩ := run_of_tryEntry entered
  have program : entryProgram vector = entryPrelude vector ++
      (entryPushes ++ [.loadPsw .s2 (.exception .t0), .jump vector .s0]) := rfl
  rw [program] at untrapped reached
  obtain ⟨start, status, after, words⟩ := vectorWords_of_not_trapped untrapped
  obtain ⟨switched, prelude, ready⟩ := steps_entryPrelude words
  refine ⟨start, status, after, words, ?_⟩
  rw [prelude.run_append] at untrapped reached
  obtain ⟨pushed, pushes, saved⟩ := steps_entryPushes ready statusInRam pcInRam untrapped
  rw [reached, pushes.run_append]
  have scratch (number : Fin 8) : pushed.machine.registers.get (.scratch number) =
      switched.registers.get (.scratch number) := by
    simp [saved.registers]
  constructor
  · change (Psw.ofBits (pushed.machine.registers.get (.scratch 2))).entered
      (.ofBits (pushed.machine.registers.get (.scratch 6))) = _
    have savedStatus := ready.savedStatus
    have readStatus := ready.status
    change switched.registers.get (.scratch 6) = _ at savedStatus
    change switched.registers.get (.scratch 2) = _ at readStatus
    rw [scratch, scratch, readStatus, savedStatus, Psw.ofBits_bits]
  · intro cell visible
    have start := ready.start
    change switched.registers.get (.scratch 0) = _ at start
    change (pushed.machine.registers.set .programCounter
      (pushed.machine.registers.get (.scratch 0))).get cell = _
    rw [scratch, start, saved.registers]
    by_cases isPc : cell = .programCounter
    · simp [isPc]
    · by_cases isPointer : cell = .stackPointer .kernel
      · simp [isPointer]
      · simp [isPc, isPointer, Ne.symm isPc, Ne.symm isPointer, ready.registers cell visible]
  · exact saved.pcHeld.of_sameMapping (.refl _) rfl
  · exact saved.statusHeld.of_sameMapping (.refl _) rfl

end Machine

end Pdp11
