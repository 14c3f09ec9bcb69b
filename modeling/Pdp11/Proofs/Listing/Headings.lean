import Pdp11.Proofs.Listing.Operands

/-!
# Operations by their mnemonics

A mnemonic tells the operation of an instruction word and whether it is the byte
form, or it tells the flags and whether they are cleared or set. Words that are
data have a mnemonic of their own.
-/

namespace Pdp11

/-- What a mnemonic stands for. -/
inductive Heading
  | data
  | operation (opcode : Opcode) (bytes : Bool)
  | flags (set : Bool) (mask : BitVec 4)
deriving DecidableEq

namespace Heading

/-- The mnemonic as a listing shows it. -/
def text : Heading → String
  | data => ".WORD"
  | operation opcode bytes => if bytes then opcode.mnemonic ++ "B" else opcode.mnemonic
  | flags set mask => Instruction.flagMnemonic (mask.setWidth 16) set

/-- Without a mask nothing tells clearing from setting. -/
def ofFlags (set : Bool) (mask : BitVec 4) : Heading :=
  if mask = 0 then flags false 0 else flags set mask

/-- The operations that an instruction word can have. -/
def opcodes : List Opcode :=
  Opcode.patterns.map fun pattern => pattern.2.2

/-- The headings of all rows. -/
def all : List Heading :=
  let named := opcodes.filter fun opcode => opcode ≠ .clearCc ∧ opcode ≠ .setCc
  let masks := (List.range 15).map fun below => BitVec.ofNat 4 (below + 1)
  data :: flags false 0 :: named.map (operation · false) ++
    (opcodes.filter Opcode.allowsBytes).map (operation · true) ++
    masks.map (flags false) ++ masks.map (flags true)

theorem ofFlags_mem_all : ∀ set mask, ofFlags set mask ∈ all := by
  decide +kernel

theorem ofFlags_ne_operation {set bytes : Bool} {mask : BitVec 4} {opcode : Opcode} :
    ofFlags set mask ≠ operation opcode bytes := by
  unfold ofFlags
  split <;> exact Heading.noConfusion

theorem ofFlags_ne_data {set : Bool} {mask : BitVec 4} : ofFlags set mask ≠ data := by
  unfold ofFlags
  split <;> exact Heading.noConfusion

theorem ofFlags_inj {set other : Bool} {mask otherMask : BitVec 4}
    (same : ofFlags set mask = ofFlags other otherMask) :
    mask = otherMask ∧ (mask = 0 ∨ set = other) := by
  unfold ofFlags at same
  split at same <;> split at same <;> simp_all

theorem operation_mem_all {opcode : Opcode} {bytes : Bool} (known : opcode ∈ opcodes)
    (notClear : opcode ≠ .clearCc) (notSet : opcode ≠ .setCc)
    (byteForm : bytes → opcode.allowsBytes) : operation opcode bytes ∈ all := by
  cases bytes
  · simp [all, known, notClear, notSet]
  · simp [all, known, byteForm rfl]

theorem nodup_spellings : (all.map fun heading => spelling heading.text.toList).Nodup := by
  decide +kernel

theorem blank_not_mem_text : ∀ heading ∈ all, ' ' ∉ heading.text.toList := by
  decide +kernel

theorem eq_of_text {first second : Heading} (firstMem : first ∈ all) (secondMem : second ∈ all)
    (same : first.text = second.text) : first = second := by
  apply List.inj_on_of_nodup_map nodup_spellings firstMem secondMem
  simp only [same]

end Heading

namespace Opcode

theorem mem_opcodes_of_ofWord? {word : Word} {opcode : Opcode}
    (found : ofWord? word = some opcode) : opcode ∈ Heading.opcodes := by
  obtain ⟨mask, value, mem, _⟩ := exists_pattern found
  exact List.mem_map_of_mem mem

end Opcode

namespace Instruction

theorem flagMnemonic_extractLsb' (word : Word) (set : Bool) :
    flagMnemonic ((word.extractLsb' 0 4).setWidth 16) set = flagMnemonic word set := by
  have bit (position : Nat) (below : position < 4) :
      ((word.extractLsb' 0 4).setWidth 16).getLsbD position = word.getLsbD position := by
    have inWord : position < 16 := by omega
    simp [below, inWord]
  simp only [flagMnemonic, List.filter_cons, List.filter_nil, bit 0 (by decide),
    bit 1 (by decide), bit 2 (by decide), bit 3 (by decide)]

/-- The heading of the row that lists `instruction`. -/
def heading (instruction : Instruction) : Heading :=
  match instruction.opcode with
  | .clearCc | .setCc =>
    .ofFlags (instruction.word.getLsbD 4) (instruction.word.extractLsb' 0 4)
  | opcode => .operation opcode (opcode.isByteForm instruction.word)

theorem text_heading (instruction : Instruction) :
    instruction.heading.text = instruction.mnemonicText := by
  have named (set : Bool) :
      (Heading.ofFlags set (instruction.word.extractLsb' 0 4)).text =
        flagMnemonic instruction.word set := by
    rw [← flagMnemonic_extractLsb', Heading.ofFlags]
    split
    · rename_i empty
      rw [empty]
      cases set <;> decide
    · rfl
  obtain ⟨pc, word, opcode, extension⟩ := instruction
  cases opcode with
  | clearCc => exact named (word.getLsbD 4)
  | setCc => exact named (word.getLsbD 4)
  | _ => rfl

theorem heading_of_flags {instruction : Instruction}
    (isFlags : instruction.opcode = .clearCc ∨ instruction.opcode = .setCc) :
    instruction.heading =
      .ofFlags (instruction.word.getLsbD 4) (instruction.word.extractLsb' 0 4) := by
  rcases isFlags with isClear | isSet
  · rw [heading, isClear]
  · rw [heading, isSet]

theorem heading_of_named {instruction : Instruction}
    (isNamed : ¬ (instruction.opcode = .clearCc ∨ instruction.opcode = .setCc)) :
    instruction.heading =
      .operation instruction.opcode (instruction.opcode.isByteForm instruction.word) := by
  unfold heading
  split
  · rename_i isClear
    exact absurd (.inl isClear) isNamed
  · rename_i isSet
    exact absurd (.inr isSet) isNamed
  · rfl

end Instruction

end Pdp11
