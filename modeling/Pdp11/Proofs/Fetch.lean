import Pdp11.Machine.Fetch
import Pdp11.Proofs.Access

/-!
# How a fetch goes

A fetch reads word after word and stops at the first that cannot be read.
These lemmas say what each outcome of it takes.
-/

namespace Pdp11.Machine

universe u

variable {δ : Type u} [Bus δ] {machine fetched : Machine δ} {cycle : MemoryCycle}
  {instruction extended : Instruction} {count : Nat} {error : AccessError}

theorem fetchWord_eq_ok_iff {word : Word} :
    machine.fetchWord cycle = (.ok word, fetched) ↔
      ∃ after, machine.read machine.psw.mode cycle machine.pc .word = (.ok word, after) ∧
        fetched = after.setPc (machine.pc + 2) := by
  simp only [fetchWord]
  constructor
  · intro succeeds
    split at succeeds
    · simp at succeeds
    · rename_i outcome
      cases succeeds
      exact ⟨_, outcome, rfl⟩
  · rintro ⟨after, outcome, rfl⟩
    rw [outcome]

theorem fetchWord_eq_error_iff :
    machine.fetchWord cycle = (.error error, fetched) ↔
      machine.read machine.psw.mode cycle machine.pc .word = (.error error, fetched) := by
  simp only [fetchWord]
  constructor
  · intro fails
    split at fails
    · rename_i outcome
      cases fails
      exact outcome
    · simp at fails
  · intro outcome
    rw [outcome]

theorem fetchExtension_succ_eq_ready_iff :
    machine.fetchExtension instruction (count + 1) = (.ready extended, fetched) ↔
      ∃ word after, machine.fetchWord .instructionStream = (.ok word, after) ∧
        after.fetchExtension
          { instruction with extension := instruction.extension ++ [word] } count =
            (.ready extended, fetched) := by
  rw [fetchExtension]
  constructor
  · intro ready
    split at ready
    · simp [abortFetch] at ready
    · rename_i outcome
      exact ⟨_, _, outcome, ready⟩
  · rintro ⟨word, after, outcome, ready⟩
    rw [outcome]
    exact ready

theorem fetchExtension_succ_eq_aborted_iff :
    machine.fetchExtension instruction (count + 1) = (.aborted error, fetched) ↔
      (∃ after, machine.fetchWord .instructionStream = (.error error, after) ∧
        fetched = after.raise error.trapClass) ∨
      ∃ word after, machine.fetchWord .instructionStream = (.ok word, after) ∧
        after.fetchExtension
          { instruction with extension := instruction.extension ++ [word] } count =
            (.aborted error, fetched) := by
  rw [fetchExtension]
  constructor
  · intro aborted
    split at aborted
    · rename_i outcome
      cases aborted
      exact .inl ⟨_, outcome, rfl⟩
    · rename_i outcome
      exact .inr ⟨_, _, outcome, aborted⟩
  · rintro (⟨after, outcome, rfl⟩ | ⟨word, after, outcome, aborted⟩)
    · rw [outcome]
      rfl
    · rw [outcome]
      exact aborted

/-- An instruction is ready once its word names it and its extension is read. -/
theorem fetch_eq_ready_iff :
    machine.fetch = (.ready instruction, fetched) ↔
      ∃ word after opcode, machine.fetchWord .fetch = (.ok word, after) ∧
        WordClass.of word = .legal opcode ∧
        let bare : Instruction := { pc := machine.pc, word, opcode, extension := [] }
        after.fetchExtension bare bare.extensionLength = (.ready instruction, fetched) := by
  simp only [fetch]
  constructor
  · intro ready
    split at ready
    · simp [abortFetch] at ready
    · rename_i word after outcome
      split at ready
      · simp [deferFetch] at ready
      · simp [deferFetch] at ready
      · rename_i opcode legal
        exact ⟨word, after, opcode, outcome, legal, ready⟩
  · rintro ⟨word, after, opcode, outcome, legal, ready⟩
    simp only [outcome, legal]
    exact ready

theorem fetch_eq_aborted_iff :
    machine.fetch = (.aborted error, fetched) ↔
      (∃ after, machine.fetchWord .fetch = (.error error, after) ∧
        fetched = after.raise error.trapClass) ∨
      ∃ word after opcode, machine.fetchWord .fetch = (.ok word, after) ∧
        WordClass.of word = .legal opcode ∧
        let bare : Instruction := { pc := machine.pc, word, opcode, extension := [] }
        after.fetchExtension bare bare.extensionLength = (.aborted error, fetched) := by
  simp only [fetch]
  constructor
  · intro aborted
    split at aborted
    · rename_i outcome
      cases aborted
      exact .inl ⟨_, outcome, rfl⟩
    · rename_i word after outcome
      split at aborted
      · simp [deferFetch] at aborted
      · simp [deferFetch] at aborted
      · rename_i opcode legal
        exact .inr ⟨word, after, opcode, outcome, legal, aborted⟩
  · rintro (⟨after, outcome, rfl⟩ | ⟨word, after, opcode, outcome, legal, aborted⟩)
    · rw [outcome]
      rfl
    · simp only [outcome, legal]
      exact aborted

/-! ## What a fetch leaves alone -/

/-- What a fetch keeps of the machine, whatever comes of it. -/
structure FetchedFrom (before after : Machine δ) : Prop where
  rest : after =
    { before with
      registers := after.registers
      mmu := after.mmu
      traps := after.traps
      devices := after.devices }

namespace FetchedFrom

variable {first second third : Machine δ}

omit [Bus δ] in
theorem refl (machine : Machine δ) : FetchedFrom machine machine :=
  ⟨rfl⟩

omit [Bus δ] in
theorem trans (head : FetchedFrom first second) (tail : FetchedFrom second third) :
    FetchedFrom first third where
  rest := by
    rw [tail.rest, head.rest]

omit [Bus δ] in
theorem psw (fetched : FetchedFrom first second) : second.psw = first.psw := by
  rw [fetched.rest]

omit [Bus δ] in
theorem runState (fetched : FetchedFrom first second) : second.runState = first.runState := by
  rw [fetched.rest]

omit [Bus δ] in
theorem traceInhibited (fetched : FetchedFrom first second) :
    second.traceInhibited = first.traceInhibited := by
  rw [fetched.rest]

omit [Bus δ] in
/-- A fetch that goes wrong leaves a trap. -/
theorem raise (fetched : FetchedFrom first second) (kind : TrapClass) :
    FetchedFrom first (second.raise kind) where
  rest := by
    rw [fetched.rest]
    rfl

omit [Bus δ] in
theorem setPc (fetched : FetchedFrom first second) (value : Word) :
    FetchedFrom first (second.setPc value) where
  rest := by
    rw [fetched.rest]
    rfl

end FetchedFrom

theorem Accessed.fetchedFrom {before after : Machine δ} (accessed : Accessed before after) :
    FetchedFrom before after where
  rest := by
    rw [accessed.rest]

theorem fetchedFrom_fetchWord (machine : Machine δ) (cycle : MemoryCycle) :
    FetchedFrom machine (machine.fetchWord cycle).2 := by
  have accessed := machine.accessed_read machine.psw.mode cycle machine.pc .word
  simp only [fetchWord]
  split <;> rename_i outcome <;> rw [outcome] at accessed
  · exact accessed.fetchedFrom
  · exact accessed.fetchedFrom.setPc _

theorem fetchedFrom_fetchExtension (machine : Machine δ) (instruction : Instruction)
    (count : Nat) : FetchedFrom machine (machine.fetchExtension instruction count).2 := by
  induction count generalizing machine instruction with
  | zero => exact .refl machine
  | succ count ih =>
      have word := machine.fetchedFrom_fetchWord .instructionStream
      rw [fetchExtension]
      split <;> rename_i outcome <;> rw [outcome] at word
      · exact word.raise _
      · exact word.trans (ih _ _)

theorem fetchedFrom_fetch (machine : Machine δ) : FetchedFrom machine machine.fetch.2 := by
  have word := machine.fetchedFrom_fetchWord .fetch
  simp only [fetch]
  split <;> rename_i outcome <;> rw [outcome] at word
  · exact word.raise _
  · split
    · exact word.raise _
    · exact word.raise _
    · exact word.trans (fetchedFrom_fetchExtension _ _ _)

/-! ## The program counter after a fetch -/

omit [Bus δ] in
theorem pc_setPc (machine : Machine δ) (value : Word) : (machine.setPc value).pc = value := by
  simp [pc, setPc]

theorem pc_fetchWord {word : Word} (succeeds : machine.fetchWord cycle = (.ok word, fetched)) :
    fetched.pc = machine.pc + 2 := by
  obtain ⟨after, -, rfl⟩ := fetchWord_eq_ok_iff.mp succeeds
  exact pc_setPc after _

theorem fetchExtension_ready
    (ready : machine.fetchExtension instruction count = (.ready extended, fetched)) :
    ∃ words : List Word, words.length = count ∧
      extended = { instruction with extension := instruction.extension ++ words } ∧
      fetched.pc = machine.pc + 2 * BitVec.ofNat 16 count := by
  induction count generalizing machine instruction with
  | zero =>
      cases ready
      exact ⟨[], rfl, by simp, by simp⟩
  | succ count ih =>
      obtain ⟨word, after, succeeds, rest⟩ := fetchExtension_succ_eq_ready_iff.mp ready
      obtain ⟨words, length, rfl, moved⟩ := ih rest
      refine ⟨word :: words, by simp [length], by simp, ?_⟩
      rw [moved, pc_fetchWord succeeds]
      apply BitVec.eq_of_toNat_eq
      simp
      omega

/-- Once an instruction is ready the program counter stands behind it. -/
theorem pc_fetch (ready : machine.fetch = (.ready instruction, fetched)) :
    instruction.pc = machine.pc ∧
      instruction.extension.length = instruction.extensionLength ∧
      fetched.pc = instruction.nextPc := by
  obtain ⟨word, after, opcode, succeeds, -, rest⟩ := fetch_eq_ready_iff.mp ready
  obtain ⟨words, length, rfl, moved⟩ := fetchExtension_ready rest
  refine ⟨rfl, length, ?_⟩
  rw [moved, pc_fetchWord succeeds, Instruction.nextPc, List.nil_append, length]

end Pdp11.Machine
