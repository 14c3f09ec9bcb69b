import Pdp11.Microcode.Program
import Pdp11.Proofs.Interpreter.Operations

/-!
# Programs by what they implement

The programs of the instructions that the interpreter covers differ in what
they compute and in whether they read a source, read the destination and assign
a result. Otherwise they are alike.
-/

namespace Pdp11

universe u

theorem Opcode.width_of_words {opcode : Opcode} (word : Word)
    (words : opcode.allowsBytes = false) (notMtps : opcode ≠ .mtps) (notMfps : opcode ≠ .mfps) :
    opcode.width word = .word := by
  simp [width, isByteForm, words, notMtps, notMfps]

namespace Instruction

/-- The micro-operations that read the source, and what it leaves of the
stream. -/
def sourcePhase (instruction : Instruction) (operation : Operation) :
    List MicroOp × InstructionStream :=
  let width := instruction.width
  let source := instruction.source.resolve width .source instruction.stream
  if operation.takesSource then
    (source.ops ++ [source.fetch width .source], source.rest)
  else
    ([], instruction.stream)

/-- What `ops` compute, framed by the reads of the operands, the assignment of the result
and the condition codes that `rule` makes. -/
def framed (instruction : Instruction) (operation : Operation) (rule : FlagRule)
    (ops : List MicroOp) (result : Reg) : List MicroOp :=
  let width := instruction.width
  let (read, stream) := instruction.sourcePhase operation
  let destination := instruction.destination.resolve width .destination stream
  let fetch := if operation.readsDestination then [destination.fetch width .destination] else []
  let assign :=
    if operation.assigns then destination.assign result width operation.extendsByte .data else []
  read ++ (destination.ops ++ (fetch ++ (ops ++ (assign ++
    [.evalFlags rule result width]))))

/-- The program of an instruction implements its operation. -/
structure Implemented (δ : Type u) [Bus δ] (instruction : Instruction) (operation : Operation)
    (rule : FlagRule) (ops : List MicroOp) (result : Reg) : Prop where
  program : instruction.program = instruction.framed operation rule ops result
  scratch : result.isGeneral = false
  notAddress : result ≠ .d1
  implements : Datapath.Implements δ operation rule instruction.width ops result

theorem combine_eq_framed (instruction : Instruction) (operation : Operation) (rule : FlagRule)
    (ops : List MicroOp) (takes : operation.takesSource) (reads : operation.readsDestination)
    (assigns : operation.assigns) (cutsByte : operation.extendsByte = false) :
    instruction.combine ops rule = instruction.framed operation rule ops .t0 := by
  simp [combine, readSource, framed, sourcePhase, takes, reads, assigns, cutsByte]

theorem compare_eq_framed (instruction : Instruction) (operation : Operation) (rule : FlagRule)
    (op : MicroOp) (takes : operation.takesSource) (reads : operation.readsDestination)
    (drops : operation.assigns = false) :
    instruction.compare op rule = instruction.framed operation rule [op] .t0 := by
  simp [compare, readSource, framed, sourcePhase, takes, reads, drops]

theorem modify_eq_framed (instruction : Instruction) (operation : Operation) (rule : FlagRule)
    (op : MicroOp) (sourceless : operation.takesSource = false)
    (reads : operation.readsDestination) (assigns : operation.assigns)
    (cutsByte : operation.extendsByte = false) :
    instruction.modify op rule = instruction.framed operation rule [op] .t0 := by
  simp [modify, resolveDestination, framed, sourcePhase, sourceless, reads, assigns, cutsByte]

theorem overwrite_eq_framed (instruction : Instruction) (operation : Operation) (rule : FlagRule)
    (op : MicroOp) {width : Width} (isWidth : instruction.width = width)
    (sourceless : operation.takesSource = false) (blind : operation.readsDestination = false)
    (assigns : operation.assigns) :
    instruction.overwrite op width operation.extendsByte rule =
      instruction.framed operation rule [op] .t0 := by
  simp [overwrite, resolveDestination, framed, sourcePhase, isWidth, sourceless, blind, assigns]

section

variable {δ : Type u} [Bus δ] {instruction : Instruction} {operation : Operation}
  {rule : FlagRule} {op : AluOp}

theorem implemented_move (isMove : instruction.program = instruction.move) :
    Implemented δ instruction .move .logical [] .s0 where
  program := by
    rw [isMove]
    simp [move, readSource, framed, sourcePhase, Operation.move]
  scratch := rfl
  notAddress := nofun
  implements := Datapath.implements_move

theorem implemented_compare (takes : operation.takesSource) (reads : operation.readsDestination)
    (drops : operation.assigns = false)
    (realizes : ∀ source destination old,
      (operation.compute instruction.width source destination old).Realizes rule
        instruction.width old (op.run source destination instruction.width old.carry))
    (isCompare : instruction.program =
      instruction.compare (.alu op .t0 .s0 .d0 instruction.width) rule) :
    Implemented δ instruction operation rule [.alu op .t0 .s0 .d0 instruction.width] .t0 where
  program := isCompare.trans (instruction.compare_eq_framed operation rule _ takes reads drops)
  scratch := rfl
  notAddress := nofun
  implements := Datapath.implements_binary false takes reads realizes

theorem implemented_binary (reversed : Bool) (takes : operation.takesSource)
    (reads : operation.readsDestination) (assigns : operation.assigns)
    (cutsByte : operation.extendsByte = false)
    (realizes : ∀ source destination old,
      (operation.compute instruction.width source destination old).Realizes rule
        instruction.width old
        (if reversed then op.run destination source instruction.width old.carry
          else op.run source destination instruction.width old.carry))
    (isCombine : instruction.program =
      instruction.combine
        [if reversed then .alu op .t0 .d0 .s0 instruction.width
          else .alu op .t0 .s0 .d0 instruction.width] rule) :
    Implemented δ instruction operation rule
      [if reversed then .alu op .t0 .d0 .s0 instruction.width
        else .alu op .t0 .s0 .d0 instruction.width] .t0 where
  program := isCombine.trans
    (instruction.combine_eq_framed operation rule _ takes reads assigns cutsByte)
  scratch := rfl
  notAddress := nofun
  implements := Datapath.implements_binary reversed takes reads realizes

theorem implemented_clearBits
    (isCombine : instruction.program =
      instruction.combine
        [.alu .not .t1 .s0 .s0 instruction.width, .alu .and .t0 .d0 .t1 instruction.width]
        .logical) :
    Implemented δ instruction .clearBits .logical
      [.alu .not .t1 .s0 .s0 instruction.width, .alu .and .t0 .d0 .t1 instruction.width] .t0 where
  program := isCombine.trans
    (instruction.combine_eq_framed .clearBits .logical _ rfl rfl rfl rfl)
  scratch := rfl
  notAddress := nofun
  implements := Datapath.implements_clearBits

theorem implemented_unary (sourceless : operation.takesSource = false)
    (reads : operation.readsDestination) (assigns : operation.assigns)
    (cutsByte : operation.extendsByte = false)
    (realizes : ∀ source destination old,
      (operation.compute instruction.width source destination old).Realizes rule
        instruction.width old (op.run destination destination instruction.width old.carry))
    (isUnary : instruction.program = instruction.unary op rule) :
    Implemented δ instruction operation rule [.alu op .t0 .d0 .d0 instruction.width] .t0 where
  program := isUnary.trans
    (instruction.modify_eq_framed operation rule _ sourceless reads assigns cutsByte)
  scratch := rfl
  notAddress := nofun
  implements := Datapath.implements_unary reads realizes

theorem implemented_shift {op : ShiftOp}
    (isShift : instruction.program = instruction.shift op) :
    Implemented δ instruction (.shift op) .shift [.shift op .t0 .d0 instruction.width] .t0 where
  program := isShift.trans (instruction.modify_eq_framed (.shift op) .shift _ rfl rfl rfl rfl)
  scratch := rfl
  notAddress := nofun
  implements := Datapath.implements_shift op

theorem implemented_clear
    (isClear : instruction.program =
      instruction.overwrite (.loadImm .t0 0) instruction.width false .clear) :
    Implemented δ instruction .clear .clear [.loadImm .t0 0] .t0 where
  program := isClear.trans (instruction.overwrite_eq_framed .clear .clear _ rfl rfl rfl rfl)
  scratch := rfl
  notAddress := nofun
  implements := Datapath.implements_clear

theorem implemented_test (isTest : instruction.program = instruction.test) :
    Implemented δ instruction .test .test [] .d0 where
  program := by
    rw [isTest]
    simp [test, resolveDestination, framed, sourcePhase, Operation.test]
  scratch := rfl
  notAddress := nofun
  implements := Datapath.implements_test

theorem implemented_swapBytes (isWord : instruction.width = .word)
    (isSwap : instruction.program = instruction.modify (.swab .t0 .d0) .swapBytes) :
    Implemented δ instruction .swapBytes .swapBytes [.swab .t0 .d0] .t0 where
  program := isSwap.trans
    (instruction.modify_eq_framed .swapBytes .swapBytes _ rfl rfl rfl rfl)
  scratch := rfl
  notAddress := nofun
  implements := by
    rw [isWord]
    exact Datapath.implements_swapBytes

theorem implemented_signExtend (isWord : instruction.width = .word)
    (isExtend : instruction.program =
      instruction.overwrite (.signExtend .t0) .word false .signExtend) :
    Implemented δ instruction .signExtend .signExtend [.signExtend .t0] .t0 where
  program := isExtend.trans
    (instruction.overwrite_eq_framed .signExtend .signExtend _ isWord rfl rfl rfl)
  scratch := rfl
  notAddress := nofun
  implements := Datapath.implements_signExtend

end

/-- Every operation that the interpreter covers is implemented by the program of
its instruction. -/
theorem exists_implemented (δ : Type u) [Bus δ] {instruction : Instruction}
    {operation : Operation} (describes : Operation.of? instruction.opcode = some operation) :
    ∃ rule ops result, Implemented δ instruction operation rule ops result := by
  obtain ⟨pc, word, opcode, extension⟩ := instruction
  cases opcode with
  | mov =>
      cases describes
      exact ⟨_, _, _, implemented_move rfl⟩
  | cmp =>
      cases describes
      exact ⟨_, _, _, implemented_compare rfl rfl rfl
        (fun source destination old => Outcome.realizes_integer _ source destination old .sub) rfl⟩
  | bit =>
      cases describes
      exact ⟨_, _, _, implemented_compare rfl rfl rfl (Outcome.realizes_and _) rfl⟩
  | bic =>
      cases describes
      exact ⟨_, _, _, implemented_clearBits rfl⟩
  | bis =>
      cases describes
      exact ⟨_, _, _, implemented_binary true rfl rfl rfl rfl
        (fun source destination => Outcome.realizes_or _ destination source) rfl⟩
  | add =>
      cases describes
      exact ⟨_, _, _, implemented_binary false rfl rfl rfl rfl
        (fun source destination old => Outcome.realizes_integer _ source destination old .add) rfl⟩
  | sub =>
      cases describes
      exact ⟨_, _, _, implemented_binary true rfl rfl rfl rfl
        (fun source destination old => Outcome.realizes_integer _ destination source old .sub) rfl⟩
  | clr =>
      cases describes
      exact ⟨_, _, _, implemented_clear rfl⟩
  | tst =>
      cases describes
      exact ⟨_, _, _, implemented_test rfl⟩
  | com =>
      cases describes
      exact ⟨_, _, _, implemented_unary rfl rfl rfl rfl
        (fun _ destination => Outcome.realizes_complement _ destination destination) rfl⟩
  | inc | dec | neg | adc =>
      cases describes
      exact ⟨_, _, _, implemented_unary rfl rfl rfl rfl
        (fun _ destination old => Outcome.realizes_integer _ destination destination old _) rfl⟩
  | sbc =>
      cases describes
      exact ⟨_, _, _, implemented_unary rfl rfl rfl rfl
        (fun _ destination => Outcome.realizes_subCarry _ destination destination) rfl⟩
  | ror | rol | asr | asl =>
      cases describes
      exact ⟨_, _, _, implemented_shift rfl⟩
  | swab =>
      cases describes
      exact ⟨_, _, _, implemented_swapBytes (Opcode.width_of_words word rfl nofun nofun) rfl⟩
  | sxt =>
      cases describes
      exact ⟨_, _, _, implemented_signExtend (Opcode.width_of_words word rfl nofun nofun) rfl⟩
  | _ => contradiction

end Instruction

end Pdp11
