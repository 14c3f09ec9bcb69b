import Pdp11.Proofs.Listing.Headings

/-!
# Listed words by their texts

The text of a row is cut at its first blank. What stands before it tells the
operation, and what follows tells the operands and the extension words. Only the
two words that clear and set no flag look alike.
-/

namespace Pdp11

/-- The words that clear or set no flag. -/
def ListingRow.idleWords : List (List Word) :=
  [[0o240], [0o260]]

namespace Instruction

/-- The instruction is what a listing at `pc` finds: one that could be carried out, with
all of its extension. -/
structure Listed (pc : Word) (instruction : Instruction) : Prop where
  found : instruction.pc = pc
  legal : WordClass.of instruction.word = .legal instruction.opcode
  complete : instruction.extension.length = instruction.extensionLength

namespace Listed

variable {pc : Word} {instruction : Instruction}

theorem known (listed : instruction.Listed pc) :
    Opcode.ofWord? instruction.word = some instruction.opcode :=
  (WordClass.of_eq_legal_iff.mp listed.legal).1

theorem heading_mem_all (listed : instruction.Listed pc) : instruction.heading ∈ Heading.all := by
  have isOpcode := Opcode.mem_opcodes_of_ofWord? listed.known
  have byteForm : instruction.opcode.isByteForm instruction.word →
      instruction.opcode.allowsBytes := by
    rw [Opcode.isByteForm, Bool.and_eq_true]
    exact And.left
  unfold heading
  split
  · exact Heading.ofFlags_mem_all _ _
  · exact Heading.ofFlags_mem_all _ _
  · rename_i notClear notSet
    exact Heading.operation_mem_all isOpcode notClear notSet byteForm

theorem extension_eq_nil (listed : instruction.Listed pc) (bare : instruction.operands = []) :
    instruction.extension = [] := by
  apply List.length_eq_zero_iff.mp
  rw [listed.complete, extensionLength, bare, List.countP_nil]

end Listed

/-! ## Fields -/

theorem isGeneral_of_mem_operands {instruction : Instruction} :
    ∀ operand ∈ instruction.operands, operand.reg.isGeneral := by
  intro operand operandMem
  have isField : operand = instruction.source ∨ operand = instruction.destination := by
    unfold operands at operandMem
    split at operandMem <;> simp_all
  rcases isField with rfl | rfl
  · exact Operand.isGeneral_ofField _
  · exact Operand.isGeneral_ofField _

section Fields

variable {pc : Word} {first second : Instruction}

theorem operands_eq_of_texts (firstListed : first.Listed pc) (secondListed : second.Listed pc)
    (same : Operand.texts first.operands first.stream =
      Operand.texts second.operands second.stream) :
    first.operands = second.operands ∧ first.extension = second.extension := by
  apply Operand.eq_of_texts isGeneral_of_mem_operands isGeneral_of_mem_operands _
    firstListed.complete secondListed.complete same
  exact congrArg (· + 2) (firstListed.found.trans secondListed.found.symm)

theorem sameDestination_of_text (firstListed : first.Listed pc) (secondListed : second.Listed pc)
    (firstSole : first.operands = [first.destination])
    (secondSole : second.operands = [second.destination])
    (same : first.destination.text first.stream = second.destination.text second.stream) :
    SameBits first.word second.word 0 6 ∧ first.extension = second.extension := by
  obtain ⟨sameOperands, sameExtension⟩ := operands_eq_of_texts firstListed secondListed (by
    rw [firstSole, secondSole]
    exact congrArg (fun text => [text]) same)
  rw [firstSole, secondSole] at sameOperands
  exact ⟨.of_operand (List.singleton_inj.mp sameOperands), sameExtension⟩

theorem sameOperands_of_text (firstListed : first.Listed pc) (secondListed : second.Listed pc)
    (firstBoth : first.operands = [first.source, first.destination])
    (secondBoth : second.operands = [second.source, second.destination])
    (same : first.source.text first.stream ++ "," ++
        first.destination.text (first.source.rest first.stream) =
      second.source.text second.stream ++ "," ++
        second.destination.text (second.source.rest second.stream)) :
    SameBits first.word second.word 0 12 ∧ first.extension = second.extension := by
  obtain ⟨sameSource, sameDestination⟩ :=
    append_comma_inj Operand.comma_not_mem_text Operand.comma_not_mem_text same
  obtain ⟨sameOperands, sameExtension⟩ := operands_eq_of_texts firstListed secondListed (by
    rw [firstBoth, secondBoth]
    exact congrArg₂ (fun source destination => [source, destination]) sameSource sameDestination)
  rw [firstBoth, secondBoth] at sameOperands
  injection sameOperands with sameSource sameRest
  have lower : SameBits first.word second.word 0 6 :=
    .of_operand (List.singleton_inj.mp sameRest)
  exact ⟨lower.append (.of_operand sameSource), sameExtension⟩

theorem sameRegister_of_text (same : first.registerField.text = second.registerField.text) :
    SameBits first.word second.word 6 9 :=
  .of_extractLsb' (Reg.ofField_of_text same)

theorem sameLoop_of_text (samePc : first.pc = second.pc)
    (sameExtension : first.extension = second.extension)
    (same : first.registerField.text ++ "," ++ octalWord first.loopTarget =
      second.registerField.text ++ "," ++ octalWord second.loopTarget) :
    SameBits first.word second.word 0 9 := by
  obtain ⟨sameRegister, sameTarget⟩ :=
    append_comma_inj (Reg.comma_not_mem_text _) (Reg.comma_not_mem_text _) same
  have sameNext : first.nextPc = second.nextPc := by
    rw [nextPc, nextPc, samePc, sameExtension]
  exact (sameBits_of_loopTarget sameNext (octalWord_inj sameTarget)).append
    (sameRegister_of_text sameRegister)

/-- What stands after the mnemonic tells the operand fields and the extension. -/
theorem sameFields_of_operandText (firstListed : first.Listed pc)
    (secondListed : second.Listed pc) (sameOpcode : first.opcode = second.opcode)
    (notFlags : ¬ (first.opcode = .clearCc ∨ first.opcode = .setCc))
    (same : first.operandText = second.operandText) :
    SameBits first.word second.word 0 first.opcode.fieldBits ∧
      first.extension = second.extension := by
  have samePc : first.pc = second.pc := firstListed.found.trans secondListed.found.symm
  have sameFormat : second.format = first.format := congrArg Opcode.format sameOpcode.symm
  have bare (noOperands : ∀ instruction : Instruction,
      instruction.format = first.format → instruction.operands = []) :
      first.extension = second.extension :=
    (firstListed.extension_eq_nil (noOperands first rfl)).trans
      (secondListed.extension_eq_nil (noOperands second sameFormat)).symm
  have onDestination (sole : ∀ instruction : Instruction,
      instruction.format = first.format → instruction.operands = [instruction.destination]) :=
    sameDestination_of_text firstListed secondListed (sole first rfl) (sole second sameFormat)
  unfold operandText at same
  rw [sameFormat, ← sameOpcode] at same
  unfold Opcode.fieldBits
  rw [← format]
  -- The format says which fields there are, and each is read off its own part of the text.
  cases isFormat : first.format <;> rw [isFormat] at same bare onDestination
  case noOperand =>
    refine ⟨?_, bare fun instruction isFormat => by rw [operands, isFormat]⟩
    intro position _ below
    contradiction
  case registerUnary =>
    exact ⟨.of_extractLsb' (Reg.ofField_of_text same),
      bare fun instruction isFormat => by rw [operands, isFormat]⟩
  case immediateUnary =>
    refine ⟨?_, bare fun instruction isFormat => by rw [operands, isFormat]⟩
    unfold format at isFormat
    cases isOpcode : first.opcode <;> rw [isOpcode] at isFormat same notFlags <;> try contradiction
    all_goals
      apply SameBits.of_and (octalWord_inj same)
      decide
  case offsetCount =>
    have sameExtension := bare fun instruction isFormat => by rw [operands, isFormat]
    refine ⟨?_, sameExtension⟩
    dsimp only at same ⊢
    split
    · rename_i isLoop
      rw [if_pos isLoop, if_pos isLoop] at same
      exact sameLoop_of_text samePc sameExtension same
    · rename_i notLoop
      rw [if_neg notLoop, if_neg notLoop] at same
      exact sameBits_of_count (octalWord_inj same)
  case branch =>
    exact ⟨sameBits_of_branchTarget samePc (octalWord_inj same),
      bare fun instruction isFormat => by rw [operands, isFormat]⟩
  case singleSource | singleDest =>
    exact onDestination (fun instruction isFormat => by rw [operands, isFormat]) same
  case registerSource =>
    obtain ⟨sameText, sameRegister⟩ :=
      append_comma_inj Operand.comma_not_mem_text Operand.comma_not_mem_text same
    obtain ⟨lower, sameExtension⟩ :=
      onDestination (fun instruction isFormat => by rw [operands, isFormat]) sameText
    exact ⟨lower.append (sameRegister_of_text sameRegister), sameExtension⟩
  case registerDest =>
    obtain ⟨sameRegister, sameText⟩ :=
      append_comma_inj (Reg.comma_not_mem_text _) (Reg.comma_not_mem_text _) same
    obtain ⟨lower, sameExtension⟩ :=
      onDestination (fun instruction isFormat => by rw [operands, isFormat]) sameText
    exact ⟨lower.append (sameRegister_of_text sameRegister), sameExtension⟩
  case sourceDest =>
    exact sameOperands_of_text firstListed secondListed (by rw [operands, isFormat])
      (by rw [operands, sameFormat, isFormat]) same

theorem operands_of_flags {instruction : Instruction}
    (isFlags : instruction.opcode = .clearCc ∨ instruction.opcode = .setCc) :
    instruction.operands = [] := by
  unfold operands format
  rcases isFlags with isClear | isSet
  · rw [isClear]
    rfl
  · rw [isSet]
    rfl

theorem mem_idleWords (listed : first.Listed pc)
    (isFlags : first.opcode = .clearCc ∨ first.opcode = .setCc)
    (noMask : first.word.extractLsb' 0 4 = 0) :
    first.word :: first.extension ∈ ListingRow.idleWords := by
  have known := listed.known
  rw [listed.extension_eq_nil (operands_of_flags isFlags), ListingRow.idleWords, List.mem_pair]
  rcases isFlags with isClear | isSet
  · rw [isClear] at known
    have isWord : first.word = 0o240 := Opcode.eq_of_flags known (by decide) (.inl rfl) noMask
    exact .inl (by rw [isWord])
  · rw [isSet] at known
    have isWord : first.word = 0o260 := Opcode.eq_of_flags known (by decide) (.inr rfl) noMask
    exact .inr (by rw [isWord])

/-- Listed instructions with the same text are the same, or neither has a flag to clear
or set. -/
theorem eq_of_texts (firstListed : first.Listed pc) (secondListed : second.Listed pc)
    (sameMnemonic : first.mnemonicText = second.mnemonicText)
    (sameOperands : first.operandText = second.operandText) :
    first.word :: first.extension = second.word :: second.extension ∨
      first.word :: first.extension ∈ ListingRow.idleWords ∧
        second.word :: second.extension ∈ ListingRow.idleWords := by
  have known := firstListed.known
  have otherKnown := secondListed.known
  have sameHeading : first.heading = second.heading := by
    apply Heading.eq_of_text firstListed.heading_mem_all secondListed.heading_mem_all
    rw [text_heading, text_heading, sameMnemonic]
  by_cases firstFlags : first.opcode = .clearCc ∨ first.opcode = .setCc
  · by_cases secondFlags : second.opcode = .clearCc ∨ second.opcode = .setCc
    · rw [heading_of_flags firstFlags, heading_of_flags secondFlags] at sameHeading
      obtain ⟨sameMask, noMask | sameSet⟩ := Heading.ofFlags_inj sameHeading
      · exact .inr ⟨mem_idleWords firstListed firstFlags noMask,
          mem_idleWords secondListed secondFlags (sameMask.symm.trans noMask)⟩
      · have sameOpcode : first.opcode = second.opcode := by
          rw [Opcode.eq_of_getLsbD_four known firstFlags, sameSet,
            ← Opcode.eq_of_getLsbD_four otherKnown secondFlags]
        rw [← sameOpcode] at otherKnown
        rw [Opcode.eq_of_flags known otherKnown firstFlags sameMask,
          firstListed.extension_eq_nil (operands_of_flags firstFlags),
          secondListed.extension_eq_nil (operands_of_flags secondFlags)]
        exact .inl rfl
    · rw [heading_of_flags firstFlags, heading_of_named secondFlags] at sameHeading
      exact absurd sameHeading Heading.ofFlags_ne_operation
  · by_cases secondFlags : second.opcode = .clearCc ∨ second.opcode = .setCc
    · rw [heading_of_named firstFlags, heading_of_flags secondFlags] at sameHeading
      exact absurd sameHeading.symm Heading.ofFlags_ne_operation
    · rw [heading_of_named firstFlags, heading_of_named secondFlags] at sameHeading
      injection sameHeading with sameOpcode sameForm
      obtain ⟨sameFields, sameExtension⟩ := sameFields_of_operandText firstListed secondListed
        sameOpcode firstFlags sameOperands
      rw [← sameOpcode] at otherKnown sameForm
      rw [Opcode.eq_of_ofWord? known otherKnown sameForm sameFields, sameExtension]
      exact .inl rfl

end Fields

end Instruction

namespace ListingRow

variable {pc : Word} {words others : List Word} {row first second : ListingRow}

/-! ## Rows -/

theorem ofWords?_of_legal {instruction : Instruction}
    (legal : WordClass.of instruction.word = .legal instruction.opcode)
    (complete : instruction.extension.length = instruction.extensionLength) :
    ListingRow.ofWords? instruction.pc (instruction.word :: instruction.extension) =
      some (.ofInstruction instruction) := by
  have needed : { instruction with extension := [] }.extensionLength =
      instruction.extension.length := complete.symm
  simp only [ofWords?, legal, needed, Nat.le_refl, if_true, List.take_length]

theorem ofWords?_of_not_legal {word : Word} {rest : List Word}
    (notLegal : ∀ opcode, WordClass.of word ≠ .legal opcode) :
    ofWords? pc (word :: rest) = some (ofData pc word) := by
  cases sort : WordClass.of word with
  | legal opcode => exact absurd sort (notLegal opcode)
  | illegal opcode => simp only [ofWords?, sort]
  | reserved => simp only [ofWords?, sort]

/-- A row takes its words from the front, and they are a word that is no instruction or an
instruction with its extension. -/
theorem exists_append_of_ofWords? (listed : ofWords? pc words = some row) :
    ∃ rest, words = row.words ++ rest ∧
      ((∃ word, (∀ opcode, WordClass.of word ≠ .legal opcode) ∧ row = ofData pc word) ∨
        ∃ instruction : Instruction, instruction.Listed pc ∧ row = ofInstruction instruction) := by
  cases words with
  | nil => contradiction
  | cons word rest =>
      by_cases isLegal : ∃ opcode, WordClass.of word = .legal opcode
      · obtain ⟨opcode, legal⟩ := isLegal
        simp only [ofWords?, legal] at listed
        split at listed
        · rename_i enough
          rw [← Option.some_inj.mp listed]
          exact ⟨_, congrArg (word :: ·) (List.take_append_drop _ rest).symm,
            .inr ⟨_, ⟨rfl, legal, List.length_take_of_le enough⟩, rfl⟩⟩
        · contradiction
      · have notLegal : ∀ opcode, WordClass.of word ≠ .legal opcode := not_exists.mp isLegal
        rw [ofWords?_of_not_legal notLegal] at listed
        rw [← Option.some_inj.mp listed]
        exact ⟨rest, rfl, .inl ⟨word, notLegal, rfl⟩⟩

theorem cases_of_ofWords? (listed : ofWords? pc words = some row) :
    (∃ word, (∀ opcode, WordClass.of word ≠ .legal opcode) ∧ row = ofData pc word) ∨
      ∃ instruction : Instruction, instruction.Listed pc ∧ row = ofInstruction instruction := by
  obtain ⟨-, -, sorts⟩ := exists_append_of_ofWords? listed
  exact sorts

/-- Listed alone, the words of a row give that row again. -/
theorem ofWords?_words (listed : ofWords? pc words = some row) :
    ofWords? pc row.words = some row := by
  rcases cases_of_ofWords? listed with ⟨word, notLegal, rfl⟩ | ⟨instruction, isListed, rfl⟩
  · exact ofWords?_of_not_legal notLegal
  · rw [← isListed.found]
    exact ofWords?_of_legal isListed.legal isListed.complete

/-- A text is cut at its first blank. -/
theorem eq_of_text (firstBlank : ' ' ∉ first.mnemonic.toList)
    (secondBlank : ' ' ∉ second.mnemonic.toList) (same : first.text = second.text) :
    first.mnemonic = second.mnemonic ∧ first.operands = second.operands := by
  let shown (row : ListingRow) : List Char :=
    if row.operands.isEmpty then [] else ' ' :: row.operands.toList
  have cut (row : ListingRow) : row.text.toList = row.mnemonic.toList ++ shown row := by
    unfold text shown
    split <;> simp
  have marked (row : ListingRow) : ∀ letter ∈ (shown row).head?, letter = ' ' := by
    unfold shown
    split <;> simp
  have recovered (row : ListingRow) : row.operands.toList = (shown row).tail := by
    unfold shown
    split
    · rename_i noOperands
      simpa using noOperands
    · rfl
  have letters := congrArg String.toList same
  rw [cut, cut] at letters
  obtain ⟨sameMnemonic, sameShown⟩ :=
    append_inj_of_mark firstBlank secondBlank (marked first) (marked second) letters
  refine ⟨String.toList_inj.mp sameMnemonic, String.toList_inj.mp ?_⟩
  rw [recovered, recovered, sameShown]

theorem text_of_noOperands (noOperands : row.operands = "") : row.text = row.mnemonic := by
  rw [text, noOperands]
  exact if_pos (by decide)

theorem text_of_idleWords (listed : ofWords? pc words = some row) (idle : row.words ∈ idleWords) :
    row.text = "NOP" := by
  have again := ofWords?_words listed
  have named (opcode : Opcode) (word : Word) (legal : WordClass.of word = .legal opcode)
      (complete : ({ pc, word, opcode, extension := [] } : Instruction).extensionLength = 0)
      (isRow : row.words = [word]) :
      row = ofInstruction { pc, word, opcode, extension := [] } := by
    have isListed :=
      @ofWords?_of_legal { pc, word, opcode, extension := [] } legal complete.symm
    rw [isRow] at again
    exact Option.some_inj.mp (again.symm.trans isListed)
  rcases List.mem_pair.mp idle with isClear | isSet
  · rw [named .clearCc 0o240 (by decide) rfl isClear, text_of_noOperands rfl]
    simp only [ofInstruction, Instruction.mnemonicText]
    decide
  · rw [named .setCc 0o260 (by decide) rfl isSet, text_of_noOperands rfl]
    simp only [ofInstruction, Instruction.mnemonicText]
    decide

theorem mnemonic_ne_data {instruction : Instruction} {address word : Word}
    (isListed : instruction.Listed pc) :
    (ofInstruction instruction).mnemonic ≠ (ofData address word).mnemonic := by
  intro same
  have isData : instruction.heading = .data := by
    apply Heading.eq_of_text isListed.heading_mem_all (by decide)
    exact (Instruction.text_heading instruction).trans same
  by_cases isFlags : instruction.opcode = .clearCc ∨ instruction.opcode = .setCc
  · rw [Instruction.heading_of_flags isFlags] at isData
    exact Heading.ofFlags_ne_data isData
  · rw [Instruction.heading_of_named isFlags] at isData
    contradiction

theorem blank_not_mem_mnemonic (listed : ofWords? pc words = some row) :
    ' ' ∉ row.mnemonic.toList := by
  rcases cases_of_ofWords? listed with ⟨word, -, rfl⟩ | ⟨instruction, isListed, rfl⟩
  · exact Heading.blank_not_mem_text .data (by decide)
  · have unbroken := Heading.blank_not_mem_text _ isListed.heading_mem_all
    rw [Instruction.text_heading] at unbroken
    exact unbroken

/-- The words of a row are known by its text, except for the two that clear and set no
flag: these are all shown as operations that do nothing. -/
theorem text_eq_iff (listed : ofWords? pc words = some first)
    (otherListed : ofWords? pc others = some second) :
    (first.text = second.text ↔
      first.words = second.words ∨ first.words ∈ idleWords ∧ second.words ∈ idleWords) ∧
    (first.words ∈ idleWords → first.text = "NOP") := by
  refine ⟨⟨fun same => ?_, ?_⟩, text_of_idleWords listed⟩
  · obtain ⟨sameMnemonic, sameOperands⟩ := eq_of_text (blank_not_mem_mnemonic listed)
      (blank_not_mem_mnemonic otherListed) same
    rcases cases_of_ofWords? listed with ⟨word, -, rfl⟩ | ⟨instruction, isListed, rfl⟩
    · rcases cases_of_ofWords? otherListed with ⟨other, -, rfl⟩ | ⟨other, otherIs, rfl⟩
      · have sameWord : word = other := octalWord_inj sameOperands
        rw [sameWord]
        exact .inl rfl
      · exact absurd sameMnemonic.symm (mnemonic_ne_data otherIs)
    · rcases cases_of_ofWords? otherListed with ⟨other, -, rfl⟩ | ⟨other, otherIs, rfl⟩
      · exact absurd sameMnemonic (mnemonic_ne_data isListed)
      · exact Instruction.eq_of_texts isListed otherIs sameMnemonic sameOperands
  · rintro (sameWords | ⟨idle, otherIdle⟩)
    · have again := ofWords?_words otherListed
      rw [← sameWords, ofWords?_words listed] at again
      rw [Option.some_inj.mp again]
    · rw [text_of_idleWords listed idle, text_of_idleWords otherListed otherIdle]

/-- An address found around the end of the address space and the same number as it stands
are told apart. -/
theorem text_eq_iff_of_wrapped :
    let moved : ListingRow := .ofInstruction
      { pc := 0o177774, word := 0o016700, opcode := .mov, extension := [4] }
    let loaded : ListingRow := .ofInstruction
      { pc := 0o177774, word := 0o012700, opcode := .mov, extension := [4] }
    ofWords? 0o177774 [0o016700, 4, 0] = some moved ∧
      ofWords? 0o177774 [0o012700, 4] = some loaded ∧
      (moved.text = loaded.text ↔
        moved.words = loaded.words ∨ moved.words ∈ idleWords ∧ loaded.words ∈ idleWords) ∧
      (moved.words ∈ idleWords → moved.text = "NOP") := by
  intro moved loaded
  have isMoved : ofWords? 0o177774 [0o016700, 4, 0] = some moved := by decide
  have isLoaded : ofWords? 0o177774 [0o012700, 4] = some loaded := by decide
  exact ⟨isMoved, isLoaded, text_eq_iff isMoved isLoaded⟩

end ListingRow

end Pdp11
