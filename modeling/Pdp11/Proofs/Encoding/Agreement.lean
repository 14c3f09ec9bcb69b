import Pdp11.Proofs.Encoding.Addresses
import Pdp11.Proofs.Encoding.OnePass
import Pdp11.Proofs.Fetch
import Pdp11.Proofs.Listing.Rows
import Pdp11.Proofs.ProgramLength

/-!
# Fetching, encoding and listing agree

The fetch counts the extension words of an instruction from its format, the
encoder takes them operand by operand, and a listing prints them. All three come
to the same length, and where an operand or a branch is relative to the program
counter, the listing shows the address that the program goes to.
-/

namespace Pdp11

namespace Instruction

variable {instruction : Instruction}

theorem map_operand_placedOperands (instruction : Instruction) :
    instruction.placedOperands.map PlacedOperand.operand = instruction.operands := by
  unfold placedOperands operands
  cases instruction.format <;> rfl

theorem exists_program_eq_branch (format : instruction.format = .branch) :
    ∃ condition, instruction.program =
      [.branch (.flags condition) instruction.pc instruction.branchTarget] := by
  rcases instruction with ⟨pc, word, opcode, extension⟩
  cases opcode with
  | br | bne | beq | bge | blt | bgt | ble | bpl | bmi | bhi | blos | bvc | bvs | bcc | bcs =>
      exact ⟨_, rfl⟩
  | _ => contradiction

end Instruction

/-- The row prints the addresses that the program of the instruction goes to. -/
structure ListingRow.Shows (row : ListingRow) (instruction : Instruction) (ops : List MicroOp) :
    Prop where
  /-- The operand column has a field for every operand. -/
  fields : instruction.placedOperands ≠ [] →
    row.operands = ",".intercalate instruction.operandFields
  operands : instruction.placedOperands.map PlacedOperand.operand = instruction.operands
  relative : ∀ placed ∈ instruction.placedOperands, placed.IsRelative →
    ∃ address,
      placed.text = (if placed.operand.mode.isDeferred then "@" else "") ++ octalWord address ∧
      addressImmediates placed.slot ops = [address]
  branch : instruction.format = .branch →
    ∃ target condition, row.operands = octalWord target ∧
      ops = [.branch (.flags condition) instruction.pc target]
  loop : instruction.opcode = .sob →
    ∃ target, row.operands = instruction.registerField.text ++ "," ++ octalWord target ∧
      ops.getLast? = some
        (.branch (.registerNonZero instruction.registerField) instruction.pc target)

theorem ListingRow.shows_ofInstruction (instruction : Instruction) :
    (ListingRow.ofInstruction instruction).Shows instruction instruction.program where
  fields := instruction.operandText_of_operands
  operands := instruction.map_operand_placedOperands
  relative _ mem isRelative :=
    ⟨_, PlacedOperand.text_of_isRelative isRelative,
      Instruction.addressImmediates_of_isRelative mem isRelative⟩
  branch format := by
    rcases Instruction.exists_program_eq_branch format with ⟨condition, program⟩
    refine ⟨instruction.branchTarget, condition, ?_, program⟩
    simp [ofInstruction, Instruction.operandText, format]
  loop isLoop := by
    refine ⟨instruction.loopTarget, ?_, ?_⟩
    · simp [ofInstruction, Instruction.operandText, Instruction.format, isLoop, Opcode.format]
    · simp [Instruction.program, isLoop, Instruction.loop]

namespace Machine

universe u

variable {δ : Type u} [Bus δ] {machine fetched : Machine δ} {instruction : Instruction}

theorem legal_of_fetch (ready : machine.fetch = (.ready instruction, fetched)) :
    WordClass.of instruction.word = .legal instruction.opcode := by
  obtain ⟨word, after, opcode, -, legal, rest⟩ := fetch_eq_ready_iff.mp ready
  obtain ⟨words, -, rfl, -⟩ := fetchExtension_ready rest
  exact legal

/-- The fetch, the encoder and the listing of an instruction agree on its length
and on the addresses that it reaches from the program counter. -/
theorem agrees_of_fetch (ready : machine.fetch = (.ready instruction, fetched)) :
    instruction.extension.length = instruction.extensionLength ∧
      fetched.pc = instruction.nextPc ∧
      ∃ pipeline row, instruction.encode = .ok pipeline ∧
        Emits instruction.onePass instruction.stream () pipeline.ops
          { cursor := instruction.nextPc, words := [] } ∧
        ListingRow.ofWords? instruction.pc (instruction.word :: instruction.extension) =
          some row ∧
        row.illegal = false ∧
        row.words.length = 1 + instruction.extension.length ∧
        row.Shows instruction pipeline.ops := by
  obtain ⟨-, complete, moved⟩ := pc_fetch ready
  rcases instruction.exists_encode with ⟨pipeline, encoded, ops⟩
  refine ⟨complete, moved, pipeline, .ofInstruction instruction, encoded, ?_,
    ListingRow.ofWords?_of_legal (legal_of_fetch ready) complete, rfl, ?_, ?_⟩
  · rw [ops]
    exact Instruction.emits_onePass complete
  · exact Nat.add_comm _ _
  · rw [ops]
    exact ListingRow.shows_ofInstruction instruction

/-- `MOV @14,20`: the source is a pointer and the destination a word, both found
from the program counter. -/
def moveRelative : Machine NoDevices :=
  { ofConfig Config.default .none with
    ram := { bytes := #[0xF7, 0x1F, 8, 0, 10, 0, 0, 0, 0, 0, 0, 0, 2, 0, 0, 0, 0, 0] } }

/-- The instruction that `moveRelative` fetches. -/
def moveRelativeWords : Instruction where
  pc := 0
  word := 0o017767
  opcode := .mov
  extension := [8, 10]

/-- The addresses 14 and 20 are printed, and the program finds the operands with
them. -/
theorem agrees_moveRelative :
    moveRelative.fetch.2.pc = 6 ∧
      ∃ pipeline row, moveRelativeWords.encode = .ok pipeline ∧
        moveRelativeWords.onePass { ops := [], stream := moveRelativeWords.stream } =
          some ((), { ops := pipeline.ops, stream := { cursor := 6, words := [] } }) ∧
        ListingRow.ofWords? 0 [0o017767, 8, 10] = some row ∧ row.words.length = 3 ∧
        row.operands = "@14,20" ∧
        addressImmediates .source pipeline.ops = [0o14] ∧
        addressImmediates .destination pipeline.ops = [0o20] := by
  have ready : moveRelative.fetch = (.ready moveRelativeWords, moveRelative.fetch.2) :=
    Prod.ext rfl rfl
  obtain ⟨-, moved, pipeline, row, encoded, emits, listed, -, length, shows⟩ :=
    agrees_of_fetch ready
  have ops : pipeline.ops = moveRelativeWords.program := Pipeline.ofOps_eq_ok_iff.mp encoded
  refine ⟨moved, pipeline, row, encoded, emits [], listed, length, ?_, ?_, ?_⟩
  · rw [shows.fields (List.cons_ne_nil _ _)]
    decide
  · rw [ops]
    rfl
  · rw [ops]
    rfl

end Machine

end Pdp11
