import Pdp11.Proofs.Interpreter.Programs

/-!
# Programs against the interpreter

The program of an instruction reads the source, finds and reads the
destination, computes, assigns the result and sets the condition codes. Each of
these phases brings the machine along with the interpreter.
-/

namespace Pdp11

universe u

/-- The stream has a word for each of the operands that take one. -/
def InstructionStream.Supplies (stream : InstructionStream) (operands : List Operand) : Prop :=
  stream.words.length = operands.countP Operand.takesWord

namespace InstructionStream.Supplies

variable {stream : InstructionStream} {operand : Operand} {operands : List Operand}

theorem nonempty (supplies : stream.Supplies (operand :: operands)) (takes : operand.takesWord) :
    stream.words ≠ [] := by
  intro empty
  rw [Supplies, empty, List.countP_cons_of_pos takes] at supplies
  contradiction

theorem rest (supplies : stream.Supplies (operand :: operands)) :
    (operand.rest stream).Supplies operands := by
  unfold Supplies at supplies ⊢
  by_cases takes : operand.takesWord
  · rw [List.countP_cons_of_pos takes] at supplies
    rw [Operand.rest, if_pos takes, tail, List.length_tail, supplies, Nat.add_sub_cancel]
  · rw [List.countP_cons_of_neg takes] at supplies
    rw [Operand.rest, if_neg takes, supplies]

theorem consumed (supplies : stream.Supplies []) : stream.words = [] :=
  List.length_eq_zero_iff.mp supplies

end InstructionStream.Supplies

theorem Instruction.operands_of_describes {instruction : Instruction} {operation : Operation}
    (describes : Operation.of? instruction.opcode = some operation) :
    instruction.operands =
      if operation.takesSource then [instruction.source, instruction.destination]
      else [instruction.destination] := by
  unfold operands format
  generalize instruction.opcode = opcode at describes
  cases opcode <;> first | contradiction | (cases describes; rfl)

/-- Where the result goes the condition codes are not. -/
theorem View.psw_of_conclude? {view final : View} {operation : Operation} {place : Place}
    {result : Word} {width : Width}
    (concludes : view.conclude? operation place result width = some final) :
    final.psw = view.psw := by
  unfold conclude? at concludes
  split at concludes
  · cases place with
    | register reg =>
        cases concludes
        rfl
    | memory address =>
        obtain ⟨-, -, ram, -, rfl⟩ := View.store?_eq_some_iff.mp concludes
        rfl
  · cases concludes
    rfl

namespace Datapath

variable {δ : Type u} {before : Datapath δ} {view : View}

theorem Locates.of_address {operand : Operand} {slot : OperandSlot} {stream : InstructionStream}
    {target : View.Place} {after : Datapath δ}
    (locates : Locates view before (operand.place slot stream) target)
    (same : after.reg slot.address = before.reg slot.address) :
    Locates view after (operand.place slot stream) target := by
  generalize placed : operand.place slot stream = place at locates ⊢
  cases locates with
  | register general => exact .register general
  | immediate loads => exact .immediate loads
  | @memory address _ holds =>
      have isSlot : address = slot.address := by
        unfold Operand.place at placed
        split at placed
        · contradiction
        · split at placed
          · contradiction
          · exact (OperandPlace.memory.inj placed).symm
        · exact (OperandPlace.memory.inj placed).symm
      subst isSlot
      exact .memory (same.trans holds)

variable [Bus δ]

/-- No status word has been written, so the condition codes are set. -/
theorem exists_flagged (rule : FlagRule) (result : Reg) (width : Width)
    (agrees : view.Agrees before.machine) :
    let codes :=
      rule.evaluate (before.reg result &&& width.mask) width before.signals view.psw.codes
    ∃ after, before.Step (.evalFlags rule result width) after ∧
      View.Agrees { view with psw := { view.psw with codes := codes } } after.machine := by
  intro codes
  let psw := { before.machine.psw with codes := codes }
  have flagged : (MicroOp.evalFlags rule result width).effect before =
      before.proceed { before.machine with psw := psw } := by
    simp only [MicroOp.effect, agrees.calm.unwritten, agrees.psw, psw, codes]
    rfl
  refine ⟨{ before with machine := { before.machine with psw := psw } }, ?_, ?_⟩
  · constructor
    · rw [flagged]
      rfl
    · rw [flagged]
      rfl
  · constructor
    · exact ⟨agrees.calm.running, agrees.calm.untrapped, agrees.calm.unasked,
        agrees.calm.unwritten, agrees.calm.unrelocated⟩
    · simp only [psw, agrees.psw]
    · exact agrees.ram
    · exact agrees.registers

/-! ## Phases -/

/-- The source is read, or not looked at. -/
theorem exists_source {instruction : Instruction} {operation : Operation} {value : Word}
    {final : View} (tracks : view.Tracks instruction.stream before.machine)
    (supplies : operation.takesSource →
      instruction.stream.Supplies [instruction.source, instruction.destination])
    (reads : view.source? operation instruction.source instruction.width = some (value, final)) :
    ∃ after, Steps before (instruction.sourcePhase operation).1 after ∧
      final.Tracks (instruction.sourcePhase operation).2 after.machine ∧
      (operation.takesSource → after.reg .s0 &&& instruction.width.mask = value) ∧
      after.signals = before.signals := by
  unfold View.source? at reads
  by_cases takes : operation.takesSource
  · simp only [if_pos takes, Option.bind_eq_bind, Option.bind_eq_some_iff, Option.pure_def,
      Option.some.injEq, Prod.mk.injEq] at reads
    rcases reads with ⟨⟨place, found⟩, locates, value, fetches, rfl, rfl⟩
    rcases exists_found .source tracks (Operand.isGeneral_ofField _) (supplies takes).nonempty
      locates with ⟨middle, arrived⟩
    rcases exists_fetched (instruction.source.resolve instruction.width .source instruction.stream)
      .source arrived.tracks arrived.locates fetches with ⟨after, fetch, tracked, keeps, holds⟩
    rw [Instruction.sourcePhase, if_pos takes]
    exact ⟨after, arrived.steps.append (.single fetch), tracked, fun _ => holds,
      keeps.signals.trans arrived.keeps.signals⟩
  · simp only [if_neg takes, Option.some.injEq, Prod.mk.injEq] at reads
    rcases reads with ⟨rfl, rfl⟩
    rw [Instruction.sourcePhase, if_neg takes]
    exact ⟨before, .nil before, tracks, fun takesIt => absurd takesIt takes, rfl⟩

/-- The destination is read, or not looked at. -/
theorem exists_destination (operand : ResolvedOperand) {operation : Operation} {width : Width}
    {value : Word} {target : View.Place} (tracks : view.Tracks operand.rest before.machine)
    (locates : Locates view before operand.place target)
    (reads : view.destination? operation target width = some value) :
    ∃ after,
      Steps before
        (if operation.readsDestination then [operand.fetch width .destination] else []) after ∧
      view.Tracks operand.rest after.machine ∧ Keeps .d0 before after ∧
      (operation.readsDestination → after.reg .d0 &&& width.mask = value) := by
  unfold View.destination? at reads
  by_cases readsIt : operation.readsDestination
  · rw [if_pos readsIt] at reads ⊢
    rcases exists_fetched operand .destination tracks locates reads with
      ⟨after, fetch, tracked, keeps, holds⟩
    exact ⟨after, .single fetch, tracked, keeps, fun _ => holds⟩
  · rw [if_neg readsIt]
    exact ⟨before, .nil before, tracks, .refl _ before, fun reads => absurd reads readsIt⟩

/-- The result is assigned, or dropped. -/
theorem exists_stored (operand : ResolvedOperand) {operation : Operation} {width : Width}
    {value : Word} {target : View.Place} {result : Reg} {final : View}
    (agrees : view.Agrees before.machine) (locates : Locates view before operand.place target)
    (concludes : view.conclude? operation target value width = some final)
    (scratch : result.isGeneral = false) (notAddress : result ≠ .d1)
    (same : before.reg result &&& width.mask = value &&& width.mask) :
    ∃ after,
      Steps before
        (if operation.assigns then operand.assign result width operation.extendsByte .data
          else []) after ∧
      Assigned final result before after := by
  unfold View.conclude? at concludes
  by_cases assigns : operation.assigns
  · rw [if_pos assigns] at concludes ⊢
    exact exists_assigned agrees locates concludes scratch notAddress same
  · rw [if_neg assigns] at concludes ⊢
    cases concludes
    exact ⟨before, .nil before, agrees, rfl, rfl⟩

theorem supplies_sourcePhase {instruction : Instruction} {operation : Operation}
    (describes : Operation.of? instruction.opcode = some operation)
    (supplies : instruction.stream.Supplies instruction.operands) :
    (instruction.sourcePhase operation).2.Supplies [instruction.destination] := by
  rw [instruction.operands_of_describes describes] at supplies
  unfold Instruction.sourcePhase
  by_cases takes : operation.takesSource
  · rw [if_pos takes] at supplies ⊢
    exact supplies.rest
  · rw [if_neg takes] at supplies ⊢
    exact supplies

/-- The program of an instruction does what the interpreter does. -/
theorem exists_performed (before : Datapath δ) {instruction : Instruction}
    {operation : Operation} {final : View}
    (tracks : view.Tracks instruction.stream before.machine) (quiet : before.signals = .quiet)
    (describes : Operation.of? instruction.opcode = some operation)
    (supplies : instruction.stream.Supplies instruction.operands)
    (performs : view.perform? operation instruction.word instruction.width = some final) :
    ∃ after, Steps before instruction.program after ∧ final.Agrees after.machine := by
  simp only [View.perform?, Option.bind_eq_bind, Option.bind_eq_some_iff, Option.pure_def,
    Option.some.injEq] at performs
  rcases performs with ⟨⟨source, sourced⟩, readsSource, ⟨place, found⟩, locates, destination,
    readsDestination, stored, concludes, rfl⟩
  have forSource (takes : operation.takesSource) :
      instruction.stream.Supplies [instruction.source, instruction.destination] := by
    rw [instruction.operands_of_describes describes, if_pos takes] at supplies
    exact supplies
  have forDestination := supplies_sourcePhase describes supplies
  rcases Instruction.exists_implemented δ describes with ⟨rule, ops, result, implemented⟩
  rcases exists_source tracks forSource readsSource with
    ⟨first, sourceSteps, sourceTracks, holdsSource, sourceSignals⟩
  rcases exists_found .destination sourceTracks (Operand.isGeneral_ofField _)
    forDestination.nonempty locates with ⟨second, arrived⟩
  rcases exists_destination
    (instruction.destination.resolve instruction.width .destination
      (instruction.sourcePhase operation).2)
    arrived.tracks arrived.locates readsDestination with
    ⟨third, destinationSteps, destinationTracks, keeps, holdsDestination⟩
  -- The source stays in `s0` while the destination is found and read.
  have holds : Holds operation instruction.width source destination third := by
    constructor
    · intro takes
      rw [keeps.scratch .s0 rfl nofun, arrived.keeps.scratch .s0 rfl nofun]
      exact holdsSource takes
    · exact holdsDestination
    · rw [keeps.signals, arrived.keeps.signals, sourceSignals, quiet]
  have agrees := destinationTracks.agrees forDestination.rest.consumed
  rcases implemented.implements third source destination holds with
    ⟨fourth, computeSteps, computed⟩
  -- The address of the destination stays in `d1` until the result is assigned.
  have sameAddress : fourth.reg .d1 = second.reg .d1 :=
    computed.address.trans (keeps.scratch .d1 rfl nofun)
  rw [← agrees.psw] at concludes
  rcases exists_stored
    (instruction.destination.resolve instruction.width .destination
      (instruction.sourcePhase operation).2)
    (computed.agrees _ agrees) (arrived.locates.of_address sameAddress) concludes
    implemented.scratch implemented.notAddress computed.realized.result with
    ⟨fifth, storeSteps, assigned⟩
  rcases exists_flagged rule result instruction.width assigned.agrees with
    ⟨last, flags, done⟩
  refine ⟨last, ?_, ?_⟩
  · rw [implemented.program]
    exact sourceSteps.append (arrived.steps.append (destinationSteps.append
      (computeSteps.append (storeSteps.append (.single flags)))))
  · have kept := View.psw_of_conclude? concludes
    have codes := computed.realized.codes
    rw [← assigned.result, ← assigned.signals, agrees.psw, ← kept] at codes
    rw [codes] at done
    rw [← kept]
    exact done

end Datapath

end Pdp11
