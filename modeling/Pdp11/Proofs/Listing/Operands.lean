import Pdp11.Instruction.Listing
import Pdp11.Proofs.Listing.Fields

/-!
# Operands by their texts

The text of an operand is its number, if it shows one, between what stands
before and after it. The kinds of letters tell the three apart, and what stands
around the number tells the addressing mode and the register.
-/

namespace Pdp11

/-! ## Cutting a text -/

/-- A text is cut in one way where its letters stop being of a kind. -/
theorem append_inj_of_kind {kind : Char → Bool} {first second rest others : List Char}
    (inFirst : ∀ letter ∈ first, kind letter) (inSecond : ∀ letter ∈ second, kind letter)
    (stops : ∀ letter ∈ rest.head?, kind letter = false)
    (othersStop : ∀ letter ∈ others.head?, kind letter = false)
    (same : first ++ rest = second ++ others) : first = second ∧ rest = others := by
  induction first generalizing second with
  | nil =>
      cases second with
      | nil => exact ⟨rfl, same⟩
      | cons letter second =>
          rw [List.nil_append] at same
          have stopped := stops letter (by simp [same])
          rw [inSecond letter List.mem_cons_self] at stopped
          contradiction
  | cons letter first ih =>
      cases second with
      | nil =>
          rw [List.nil_append] at same
          have stopped := othersStop letter (by simp [← same])
          rw [inFirst letter List.mem_cons_self] at stopped
          contradiction
      | cons other second =>
          injection same with sameLetter sameRest
          rw [List.forall_mem_cons] at inFirst inSecond
          have onward := ih inFirst.2 inSecond.2 sameRest
          rw [sameLetter, onward.1]
          exact ⟨rfl, onward.2⟩

/-- A text is cut in one way at the first of its marks. -/
theorem append_inj_of_mark {mark : Char} {first second rest others : List Char}
    (inFirst : mark ∉ first) (inSecond : mark ∉ second)
    (marked : ∀ letter ∈ rest.head?, letter = mark)
    (othersMarked : ∀ letter ∈ others.head?, letter = mark)
    (same : first ++ rest = second ++ others) : first = second ∧ rest = others := by
  have unmarked {letters : List Char} (outside : mark ∉ letters) :
      ∀ letter ∈ letters, decide (letter ≠ mark) := by
    intro letter letterMem
    exact decide_eq_true fun isMark => outside (isMark ▸ letterMem)
  apply append_inj_of_kind (unmarked inFirst) (unmarked inSecond) _ _ same
  · intro letter isHead
    exact decide_eq_false (not_not_intro (marked letter isHead))
  · intro letter isHead
    exact decide_eq_false (not_not_intro (othersMarked letter isHead))

/-- The letters as one number, by which texts are told apart at once. -/
def spelling (letters : List Char) : Nat :=
  letters.foldl (fun number letter => 128 * number + letter.toNat) 0

/-- Of two texts with a comma between them, the first is cut off by it. -/
theorem append_comma_inj {first second rest others : String} (inFirst : ',' ∉ first.toList)
    (inSecond : ',' ∉ second.toList)
    (same : first ++ "," ++ rest = second ++ "," ++ others) : first = second ∧ rest = others := by
  have letters := congrArg String.toList same
  simp only [String.toList_append, List.append_assoc] at letters
  obtain ⟨sameFirst, sameRest⟩ :=
    append_inj_of_mark inFirst inSecond (by simp) (by simp) letters
  exact ⟨String.toList_inj.mp sameFirst, String.toList_inj.mp (List.append_cancel_left sameRest)⟩

/-! ## Numbers -/

theorem octal_inj {first second : Nat} (same : octal first = octal second) : first = second := by
  have digits := congrArg String.toList same
  rw [octal, octal, String.toList_ofList, String.toList_ofList] at digits
  calc
    first = Nat.ofDigitChars 8 (Nat.toDigits 8 first) 0 :=
      (Nat.ofDigitChars_toDigits (by decide) (by decide)).symm
    _ = Nat.ofDigitChars 8 (Nat.toDigits 8 second) 0 := by rw [digits]
    _ = second := Nat.ofDigitChars_toDigits (by decide) (by decide)

theorem octalWord_inj {first second : Word} (same : octalWord first = octalWord second) :
    first = second :=
  BitVec.eq_of_toNat_eq (octal_inj same)

theorem isDigit_of_mem_octalWord {word : Word} {letter : Char}
    (letterMem : letter ∈ (octalWord word).toList) : letter.isDigit := by
  rw [octalWord, octal, String.toList_ofList] at letterMem
  exact Nat.isDigit_of_mem_toDigits (by decide) (by decide) letterMem

theorem toList_octalWord_ne_nil (word : Word) : (octalWord word).toList ≠ [] := by
  rw [octalWord, octal, String.toList_ofList]
  exact Nat.toDigits_ne_nil

/-! ## Registers -/

namespace Reg

/-- The name of a register, letter by letter. -/
def letters : Reg → List Char
  | r0 => ['R', '0']
  | r1 => ['R', '1']
  | r2 => ['R', '2']
  | r3 => ['R', '3']
  | r4 => ['R', '4']
  | r5 => ['R', '5']
  | sp => ['S', 'P']
  | pc => ['P', 'C']
  | _ => ['?', '?']

theorem toList_text (reg : Reg) : reg.text.toList = reg.letters := by
  cases reg <;> rfl

theorem comma_not_mem_text (reg : Reg) : ',' ∉ reg.text.toList := by
  cases reg <;> decide

theorem ofField_of_text {first second : BitVec 3}
    (same : (ofField first).text = (ofField second).text) : first = second := by
  have letters := congrArg String.toList same
  rw [toList_text, toList_text] at letters
  revert first second
  decide

end Reg

/-! ## Operands -/

namespace Operand

/-- What stands before the number of an operand, or before its register. -/
def lead (operand : Operand) : List Char :=
  match operand.mode with
  | .autoincrement => if operand.reg = .pc then ['#'] else []
  | .autoincrementDeferred => if operand.reg = .pc then ['@', '#'] else ['@']
  | .autodecrementDeferred | .indexDeferred => ['@']
  | _ => []

/-- The number that is shown for the extension word. -/
def shown (operand : Operand) (stream : InstructionStream) : Word :=
  match operand.mode with
  | .index | .indexDeferred => if operand.reg = .pc then stream.relativeAddress else stream.head
  | _ => stream.head

/-- The digits of the extension word, if the operand takes one. -/
def number (operand : Operand) (stream : InstructionStream) : List Char :=
  if operand.takesWord then (octalWord (operand.shown stream)).toList else []

/-- What stands after the number. -/
def close (operand : Operand) : List Char :=
  let name := operand.reg.letters
  match operand.mode with
  | .register => name
  | .registerDeferred => '(' :: name ++ [')']
  | .autoincrement | .autoincrementDeferred =>
    if operand.reg = .pc then [] else '(' :: name ++ [')', '+']
  | .autodecrement | .autodecrementDeferred => '-' :: '(' :: name ++ [')']
  | .index | .indexDeferred => if operand.reg = .pc then [] else '(' :: name ++ [')']

theorem toList_text (operand : Operand) (stream : InstructionStream) :
    (operand.text stream).toList = operand.lead ++ (operand.number stream ++ operand.close) := by
  unfold text lead number shown close takesWord
  cases operand.mode <;> by_cases isPc : operand.reg = .pc <;> simp [isPc, Reg.toList_text]

/-- The operands that an instruction can name. -/
def all : List Operand :=
  let modes : List AddressingMode :=
    [.register, .registerDeferred, .autoincrement, .autoincrementDeferred, .autodecrement,
      .autodecrementDeferred, .index, .indexDeferred]
  modes.flatMap fun mode => [.r0, .r1, .r2, .r3, .r4, .r5, .sp, .pc].map fun reg => ⟨mode, reg⟩

theorem mem_all {operand : Operand} (general : operand.reg.isGeneral) : operand ∈ all := by
  rcases operand with ⟨mode, reg⟩
  cases mode <;> cases reg <;> first | contradiction | decide

/-- Whatever the number is, no two operands look alike around it. -/
theorem nodup_spellings :
    (all.map fun operand =>
      2 * spelling (operand.lead ++ operand.close) + operand.takesWord.toNat).Nodup := by
  decide +kernel

/-- The letter can stand before the number of an operand. -/
def isLead (letter : Char) : Bool :=
  letter = '@' || letter = '#'

theorem isLead_of_mem_lead {operand : Operand} :
    ∀ letter ∈ operand.lead, isLead letter := by
  have checked : operand.lead.all isLead := by
    rcases operand with ⟨mode, reg⟩
    cases mode <;> cases reg <;> rfl
  exact List.all_eq_true.mp checked

/-- The letters that follow are neither of those before, nor digits. -/
theorem close_head {operand : Operand} :
    ∀ letter ∈ operand.close.head?, isLead letter = false ∧ letter.isDigit = false := by
  have checked : operand.close.head?.all fun letter => !isLead letter && !letter.isDigit := by
    rcases operand with ⟨mode, reg⟩
    cases mode <;> cases reg <;> rfl
  intro letter isHead
  rw [Option.mem_def.mp isHead] at checked
  simpa using checked

theorem isDigit_of_mem_number {operand : Operand} {stream : InstructionStream} :
    ∀ letter ∈ operand.number stream, letter.isDigit := by
  intro letter letterMem
  rw [number] at letterMem
  split at letterMem
  · exact isDigit_of_mem_octalWord letterMem
  · exact absurd letterMem List.not_mem_nil

theorem number_ne_nil_iff (operand : Operand) (stream : InstructionStream) :
    operand.number stream ≠ [] ↔ operand.takesWord := by
  rw [number]
  split
  · rename_i takes
    exact iff_of_true (toList_octalWord_ne_nil _) takes
  · rename_i takesNone
    exact iff_of_false (fun nonempty => nonempty rfl) takesNone

theorem isLead_eq_false_of_isDigit {letter : Char} (isDigit : letter.isDigit) :
    isLead letter = false := by
  rw [isLead, Bool.or_eq_false_iff, decide_eq_false_iff_not, decide_eq_false_iff_not]
  constructor <;> rintro rfl <;> exact absurd isDigit (by decide)

/-- What stands before the number ends with it, or with what comes in its place. -/
theorem isLead_eq_false_of_head {operand : Operand} {stream : InstructionStream} :
    ∀ letter ∈ (operand.number stream ++ operand.close).head?, isLead letter = false := by
  intro letter isHead
  cases digits : operand.number stream with
  | nil =>
      rw [digits, List.nil_append] at isHead
      exact (close_head letter isHead).1
  | cons digit rest =>
      rw [digits, List.cons_append, List.head?_cons, Option.mem_some_iff] at isHead
      subst isHead
      have inNumber : digit ∈ operand.number stream := by
        rw [digits]
        exact List.mem_cons_self
      exact isLead_eq_false_of_isDigit (isDigit_of_mem_number digit inNumber)

variable {first second : Operand} {stream other : InstructionStream}

theorem shown_inj (sameCursor : stream.cursor = other.cursor)
    (same : first.shown stream = first.shown other) : stream.head = other.head := by
  have sameTarget : stream.relativeAddress = other.relativeAddress → stream.head = other.head := by
    intro same
    rw [InstructionStream.relativeAddress, InstructionStream.relativeAddress,
      InstructionStream.tail, InstructionStream.tail, sameCursor] at same
    exact BitVec.add_left_inj _ |>.mp same
  unfold shown at same
  cases mode : first.mode <;> simp only [mode] at same <;> first | exact same | skip
  all_goals
    split at same
    · exact sameTarget same
    · exact same

/-- An operand is known by its text, and so is the word that it takes. -/
theorem eq_of_text (firstGeneral : first.reg.isGeneral) (secondGeneral : second.reg.isGeneral)
    (sameCursor : stream.cursor = other.cursor) (same : first.text stream = second.text other) :
    first = second ∧ (first.takesWord → stream.head = other.head) := by
  have letters := congrArg String.toList same
  rw [toList_text, toList_text] at letters
  obtain ⟨sameLead, sameRest⟩ := append_inj_of_kind isLead_of_mem_lead isLead_of_mem_lead
    isLead_eq_false_of_head isLead_eq_false_of_head letters
  obtain ⟨sameNumber, sameClose⟩ := append_inj_of_kind
    isDigit_of_mem_number isDigit_of_mem_number
    (fun letter isHead => (close_head letter isHead).2)
    (fun letter isHead => (close_head letter isHead).2) sameRest
  have sameTaking : first.takesWord = second.takesWord := by
    rw [Bool.eq_iff_iff, ← number_ne_nil_iff first stream, sameNumber, number_ne_nil_iff]
  have sameOperand : first = second := by
    apply List.inj_on_of_nodup_map nodup_spellings (mem_all firstGeneral) (mem_all secondGeneral)
    simp only [sameLead, sameClose, sameTaking]
  subst sameOperand
  refine ⟨rfl, fun takes => ?_⟩
  rw [number, number, if_pos takes, if_pos takes] at sameNumber
  exact shown_inj sameCursor (octalWord_inj (String.toList_inj.mp sameNumber))

theorem comma_not_mem_text : ',' ∉ (first.text stream).toList := by
  rw [toList_text, List.mem_append, List.mem_append]
  rintro (inLead | inNumber | inClose)
  · exact absurd (isLead_of_mem_lead _ inLead) (by decide)
  · exact absurd (isDigit_of_mem_number _ inNumber) (by decide)
  · revert inClose
    rcases first with ⟨mode, reg⟩
    cases mode <;> cases reg <;> decide

/-! ## Operands of one instruction -/

theorem words_of_taken (sameHead : stream.head = other.head)
    (sameTail : stream.tail.words = other.tail.words) (ample : stream.words.length ≠ 0)
    (otherAmple : other.words.length ≠ 0) : stream.words = other.words := by
  obtain ⟨cursor, _ | ⟨word, words⟩⟩ := stream
  · contradiction
  obtain ⟨otherCursor, _ | ⟨otherWord, otherWords⟩⟩ := other
  · contradiction
  exact congrArg₂ List.cons sameHead sameTail

/-- The texts of operands that take their words from one stream. -/
def texts : List Operand → InstructionStream → List String
  | [], _ => []
  | operand :: operands, stream => operand.text stream :: texts operands (operand.rest stream)

/-- Operands are known by their texts, and with them all the words they take. -/
theorem eq_of_texts {operands others : List Operand}
    (general : ∀ operand ∈ operands, operand.reg.isGeneral)
    (othersGeneral : ∀ operand ∈ others, operand.reg.isGeneral)
    (sameCursor : stream.cursor = other.cursor)
    (complete : stream.words.length = operands.countP takesWord)
    (otherComplete : other.words.length = others.countP takesWord)
    (same : texts operands stream = texts others other) :
    operands = others ∧ stream.words = other.words := by
  induction operands generalizing others stream other with
  | nil =>
      cases others with
      | nil =>
          rw [List.countP_nil, List.length_eq_zero_iff] at complete otherComplete
          rw [complete, otherComplete]
          exact ⟨rfl, rfl⟩
      | cons operand others => contradiction
  | cons operand operands ih =>
      cases others with
      | nil => contradiction
      | cons another others =>
          rw [texts, texts] at same
          injection same with sameText sameTexts
          rw [List.forall_mem_cons] at general othersGeneral
          obtain ⟨rfl, sameHead⟩ := eq_of_text general.1 othersGeneral.1 sameCursor sameText
          rw [List.countP_cons] at complete otherComplete
          unfold rest at sameTexts
          split at sameTexts
          · rename_i takes
            rw [if_pos takes] at complete otherComplete
            have onward := ih general.2 othersGeneral.2
              (congrArg (· + 2) sameCursor)
              (by rw [InstructionStream.tail, List.length_tail, complete, Nat.add_sub_cancel])
              (by rw [InstructionStream.tail, List.length_tail, otherComplete, Nat.add_sub_cancel])
              sameTexts
            exact ⟨by rw [onward.1], words_of_taken (sameHead takes) onward.2
              (by omega) (by omega)⟩
          · rename_i takesNone
            rw [if_neg takesNone] at complete otherComplete
            have onward := ih general.2 othersGeneral.2 sameCursor complete otherComplete sameTexts
            exact ⟨by rw [onward.1], onward.2⟩

end Operand

end Pdp11
