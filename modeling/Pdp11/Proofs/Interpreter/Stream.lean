import Pdp11.Proofs.Fetch
import Pdp11.Proofs.Interpreter.Simulation

/-!
# Fetching ahead of the interpreter

The interpreter finds each word of an instruction where the one before it ends.
A machine that fetches as many words at once finds the same ones there.
-/

namespace Pdp11

universe u

namespace View

theorem streams_append {view : View} {cursor : Word} {first second : List Word} :
    view.Streams cursor (first ++ second) ↔
      view.Streams cursor first ∧
        view.Streams (cursor + 2 * BitVec.ofNat 16 first.length) second := by
  induction first generalizing cursor with
  | nil => simp [Streams]
  | cons word rest ih =>
      have ahead : cursor + 2 * BitVec.ofNat 16 (word :: rest).length =
          cursor + 2 + 2 * BitVec.ofNat 16 rest.length := by
        rw [List.length_cons, Nat.add_comm, advance_add]
        rfl
      rw [List.cons_append, Streams, Streams, ih, ahead, and_assoc]

/-! ## What the interpreter consumes -/

/-- On the way to `after` the interpreter consumes `words`, and writes no
memory. -/
structure Consumes (view : View) (words : List Word) (after : View) : Prop where
  streams : view.Streams (view.reg .pc) words
  pc : after.reg .pc = view.reg .pc + 2 * BitVec.ofNat 16 words.length
  ram : after.ram = view.ram

namespace Consumes

variable {view middle after : View} {first second : List Word}

theorem refl (view : View) : Consumes view [] view where
  streams := trivial
  pc := (BitVec.add_zero _).symm
  ram := rfl

theorem trans (head : Consumes view first middle) (tail : Consumes middle second after) :
    Consumes view (first ++ second) after where
  streams := by
    apply streams_append.mpr
    constructor
    · exact head.streams
    · rw [← head.pc]
      exact tail.streams.of_ram view head.ram.symm
  pc := by
    rw [tail.pc, head.pc, List.length_append, advance_add]
  ram := tail.ram.trans head.ram

theorem of_next? {word : Word} (next : view.next? = some (word, after)) :
    Consumes view [word] after := by
  rcases next?_eq_some_iff.mp next with ⟨loads, rfl⟩
  constructor
  · exact ⟨loads, trivial⟩
  · rw [reg_setReg, if_pos rfl]
    rfl
  · rfl

theorem setReg (view : View) {reg : Reg} (notPc : reg ≠ .pc) (value : Word) :
    Consumes view [] (view.setReg reg value) where
  streams := trivial
  pc := by
    rw [reg_setReg, if_neg notPc]
    exact (BitVec.add_zero _).symm
  ram := rfl

theorem of_stepDown? {reg : Reg} {amount : Word}
    (lowers : view.stepDown? reg amount = some after) : Consumes view [] after := by
  rcases stepDown?_eq_some_iff.mp lowers with ⟨notPc, -, rfl⟩
  exact setReg view notPc _

theorem of_stepUp? {reg : Reg} {amount value : Word}
    (raises : view.stepUp? reg amount = some (value, after)) :
    ∃ words : List Word, words.length = (if reg = .pc then 1 else 0) ∧
      Consumes view words after := by
  by_cases isPc : reg = .pc
  · subst isPc
    rcases stepUp?_pc_eq_some_iff.mp raises with ⟨-, word, next⟩
    exact ⟨[word], rfl, of_next? next⟩
  · rcases (stepUp?_eq_some_iff isPc).mp raises with ⟨-, rfl⟩
    exact ⟨[], by simp [isPc], setReg view isPc _⟩

/-- An operand takes the words that its mode says. -/
theorem of_locate? {operand : Operand} {width : Width} {place : Place}
    (locates : view.locate? operand width = some (place, after)) :
    ∃ words : List Word, words.length = [operand].countP Operand.takesWord ∧
      Consumes view words after := by
  rcases operand with ⟨mode, reg⟩
  cases mode with
  | register =>
      cases locates
      exact ⟨[], rfl, refl view⟩
  | registerDeferred =>
      obtain ⟨-, -, rfl⟩ : reg ≠ .pc ∧ .memory (view.reg reg) = place ∧ view = after := by
        simpa [locate?] using locates
      exact ⟨[], rfl, refl view⟩
  | autoincrement =>
      simp only [locate?, Option.bind_eq_bind, Option.bind_eq_some_iff, Option.pure_def,
        Option.some.injEq, Prod.mk.injEq] at locates
      rcases locates with ⟨⟨address, middle⟩, raises, -, rfl⟩
      rcases of_stepUp? raises with ⟨words, length, consumes⟩
      exact ⟨words, by simp [length, Operand.takesWord], consumes⟩
  | autoincrementDeferred =>
      simp only [locate?, Option.bind_eq_bind, Option.bind_eq_some_iff, Option.pure_def,
        Option.some.injEq, Prod.mk.injEq] at locates
      rcases locates with ⟨⟨pointer, middle⟩, raises, address, -, -, rfl⟩
      rcases of_stepUp? raises with ⟨words, length, consumes⟩
      exact ⟨words, by simp [length, Operand.takesWord], consumes⟩
  | autodecrement =>
      simp only [locate?, Option.bind_eq_bind, Option.bind_eq_some_iff, Option.pure_def,
        Option.some.injEq, Prod.mk.injEq] at locates
      rcases locates with ⟨middle, lowers, -, rfl⟩
      exact ⟨[], rfl, of_stepDown? lowers⟩
  | autodecrementDeferred =>
      simp only [locate?, Option.bind_eq_bind, Option.bind_eq_some_iff, Option.pure_def,
        Option.some.injEq, Prod.mk.injEq] at locates
      rcases locates with ⟨middle, lowers, address, -, -, rfl⟩
      exact ⟨[], rfl, of_stepDown? lowers⟩
  | index =>
      simp only [locate?, Option.bind_eq_bind, Option.bind_eq_some_iff, Option.pure_def,
        Option.some.injEq, Prod.mk.injEq] at locates
      rcases locates with ⟨⟨offset, middle⟩, next, -, rfl⟩
      exact ⟨[offset], rfl, of_next? next⟩
  | indexDeferred =>
      simp only [locate?, Option.bind_eq_bind, Option.bind_eq_some_iff, Option.pure_def,
        Option.some.injEq, Prod.mk.injEq] at locates
      rcases locates with ⟨⟨offset, middle⟩, next, address, -, -, rfl⟩
      exact ⟨[offset], rfl, of_next? next⟩

theorem of_source? {operation : Operation} {operand : Operand} {width : Width} {value : Word}
    (reads : view.source? operation operand width = some (value, after)) :
    ∃ words : List Word,
      words.length =
        (if operation.takesSource then [operand] else []).countP Operand.takesWord ∧
      Consumes view words after := by
  unfold source? at reads
  by_cases takes : operation.takesSource
  · simp only [if_pos takes, Option.bind_eq_bind, Option.bind_eq_some_iff, Option.pure_def,
      Option.some.injEq, Prod.mk.injEq] at reads
    rcases reads with ⟨⟨place, found⟩, locates, value, -, -, rfl⟩
    rw [if_pos takes]
    exact of_locate? locates
  · simp only [if_neg takes, Option.some.injEq, Prod.mk.injEq] at reads
    rcases reads with ⟨-, rfl⟩
    rw [if_neg takes]
    exact ⟨[], rfl, refl view⟩

end Consumes

/-- Memory holds a word for each operand that takes one. -/
theorem exists_streams_of_perform? {view final : View} {operation : Operation} {word : Word}
    {width : Width} (performs : view.perform? operation word width = some final) :
    ∃ words : List Word,
      words.length =
        ((if operation.takesSource then [Operand.ofField (word.extractLsb' 6 6)] else []) ++
          [Operand.ofField (word.extractLsb' 0 6)]).countP Operand.takesWord ∧
      view.Streams (view.reg .pc) words := by
  simp only [perform?, Option.bind_eq_bind, Option.bind_eq_some_iff] at performs
  rcases performs with ⟨⟨source, middle⟩, reads, ⟨place, found⟩, locates, -⟩
  rcases Consumes.of_source? reads with ⟨first, firstLength, head⟩
  rcases Consumes.of_locate? locates with ⟨second, secondLength, tail⟩
  refine ⟨first ++ second, ?_, (head.trans tail).streams⟩
  rw [List.length_append, List.countP_append, firstLength, secondLength]

end View

/-! ## What the machine fetches -/

namespace View.Tracks

variable {δ : Type u} [Bus δ] {machine : Machine δ} {view : View} {cursor word : Word}
  {fetched words : List Word}

omit [Bus δ] in
/-- The machine moves ahead by a word. -/
theorem setPc (tracks : view.Tracks ⟨cursor, fetched⟩ machine)
    (loads : view.load? machine.pc .word = some word) :
    view.Tracks ⟨cursor, fetched ++ [word]⟩ (machine.setPc (machine.pc + 2)) where
  calm := ⟨tracks.calm.running, tracks.calm.untrapped, tracks.calm.unasked,
    tracks.calm.unwritten, tracks.calm.unrelocated⟩
  psw := tracks.psw
  ram := tracks.ram
  registers := by
    intro cell visible notPc
    rw [Machine.setPc, RegisterFile.get_set, if_neg (Ne.symm notPc)]
    exact tracks.registers cell visible notPc
  cursor := tracks.cursor
  pc := by
    rw [Machine.pc_setPc, tracks.pc, List.length_append, advance_add]
    rfl
  streams := by
    apply streams_append.mpr
    rw [tracks.pc] at loads
    exact ⟨tracks.streams, loads, trivial⟩

theorem exists_fetchWord (tracks : view.Tracks ⟨cursor, fetched⟩ machine) (cycle : MemoryCycle)
    (loads : view.load? machine.pc .word = some word) :
    ∃ after, machine.fetchWord cycle = (.ok word, after) ∧ after.pc = machine.pc + 2 ∧
      view.Tracks ⟨cursor, fetched ++ [word]⟩ after := by
  have read := Machine.read_of_load? tracks.calm.unrelocated tracks.ram machine.psw.mode cycle
    loads
  have off : (machine.mmu.noteFetch cycle machine.pc).enabled = machine.mmu.enabled := by
    unfold Mmu.noteFetch
    split <;> rfl
  exact ⟨_, Machine.fetchWord_eq_ok_iff.mpr ⟨_, read, rfl⟩, Machine.pc_setPc _ _,
    (tracks.setMmu off).setPc loads⟩

theorem exists_fetchExtension (tracks : view.Tracks ⟨cursor, fetched⟩ machine)
    (streams : view.Streams machine.pc words) (instruction : Instruction) :
    ∃ after,
      machine.fetchExtension instruction words.length =
        (.ready { instruction with extension := instruction.extension ++ words }, after) ∧
      view.Tracks ⟨cursor, fetched ++ words⟩ after := by
  induction words generalizing machine instruction fetched with
  | nil => exact ⟨machine, by simp [Machine.fetchExtension], by simpa using tracks⟩
  | cons word rest ih =>
      rcases tracks.exists_fetchWord .instructionStream streams.1 with
        ⟨middle, succeeds, moved, tracked⟩
      have streamsRest := streams.2
      rw [← moved] at streamsRest
      rcases ih tracked streamsRest
        { instruction with extension := instruction.extension ++ [word] } with
        ⟨after, ready, tracksAll⟩
      rw [List.append_assoc] at ready tracksAll
      exact ⟨after,
        Machine.fetchExtension_succ_eq_ready_iff.mpr ⟨word, middle, succeeds, ready⟩, tracksAll⟩

/-- The machine fetches the instruction that the interpreter carries out. -/
theorem exists_fetch {middle final : View} {opcode : Opcode} {operation : Operation}
    (tracks : view.Tracks ⟨view.reg .pc, []⟩ machine)
    (next : view.next? = some (word, middle)) (names : Opcode.ofWord? word = some opcode)
    (describes : Operation.of? opcode = some operation)
    (performs : middle.perform? operation word (opcode.width word) = some final) :
    ∃ instruction after, machine.fetch = (.ready instruction, after) ∧
      instruction.word = word ∧ instruction.opcode = opcode ∧
      instruction.stream.Supplies instruction.operands ∧
      middle.Tracks instruction.stream after := by
  have atWord : machine.pc = view.reg .pc := tracks.pc.trans (BitVec.add_zero _)
  have loads := (next?_eq_some_iff.mp next).1
  rw [← atWord] at loads
  rcases tracks.exists_fetchWord .fetch loads with ⟨started, succeeds, moved, tracked⟩
  rcases tracked.next (by simp) next with ⟨-, -, -, tracksStarted⟩
  rcases exists_streams_of_perform? performs with ⟨words, length, streams⟩
  have sameCursor : started.pc = middle.reg .pc := by
    rw [moved, atWord, tracksStarted.cursor]
    rfl
  rw [← sameCursor] at streams
  let bare : Instruction := { pc := machine.pc, word, opcode, extension := [] }
  rcases exists_fetchExtension tracksStarted streams bare with ⟨after, ready, tracksAll⟩
  have enough : words.length = bare.extensionLength := by
    rw [length, Instruction.extensionLength, bare.operands_of_describes describes]
    by_cases takes : operation.takesSource
    · simp [takes, bare, Instruction.source, Instruction.destination]
    · simp [takes, bare, Instruction.destination]
  have legal : WordClass.of word = .legal opcode := by
    refine WordClass.of_eq_legal_iff.mpr ⟨names, ?_⟩
    rintro ⟨rfl | rfl, -⟩
    · contradiction
    · contradiction
  rw [enough] at ready
  refine ⟨{ bare with extension := words }, after, ?_, rfl, rfl, enough, ?_⟩
  · exact Machine.fetch_eq_ready_iff.mpr ⟨word, started, opcode, succeeds, legal, ready⟩
  · rw [← atWord] at tracksAll
    exact tracksAll

end View.Tracks

end Pdp11
