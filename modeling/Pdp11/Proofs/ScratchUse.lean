import Pdp11.Proofs.Staging

/-!
# Scratch registers are written before they are read

When an instruction starts, the scratch registers hold what an earlier one left
there. No program looks at that: it reads a scratch register only after one of
its own micro-operations has written it, and so does the entry to a handler.
-/

namespace Pdp11

namespace MicroOp

/-- The registers that the micro-operation reads by name. -/
def sources : MicroOp → List Reg
  | move _ src | addImm _ src _ | signExtendByte _ src | writePreviousSp src | shift _ _ src _
  | swab _ src | loadPsw src .ordinary | loadPsw src .mtps => [src]
  | step reg _ => [reg]
  | load _ address _ _ => [address]
  | store address src _ _ => [address, src]
  | insertByte dst src => [dst, src]
  | loadPsw src (.exception interrupted) => [src, interrupted]
  | alu _ _ first second _ | mul _ _ first second => [first, second]
  | div high low divisor => [high, low, divisor]
  | shiftArith _ src count => [src, count]
  | shiftArithPair high low count => [high, low, count]
  | evalFlags _ value _ => [value]
  | stackGuard => [.sp]
  | branch (.registerNonZero reg) _ _ => [reg]
  | jump _ target => [target]
  | _ => []

end MicroOp

/-- The register holds something that the program may read: it is no scratch
register, or it is one of `written`. -/
def Reg.ReadableAfter (written : List Reg) (reg : Reg) : Prop :=
  reg.isGeneral ∨ reg ∈ written

/-- The registers that `ops` write by name. -/
def writtenBy (ops : List MicroOp) : List Reg :=
  ops.flatMap MicroOp.destinations

theorem writtenBy_nil : writtenBy [] = [] :=
  rfl

theorem writtenBy_cons (op : MicroOp) (ops : List MicroOp) :
    writtenBy (op :: ops) = op.destinations ++ writtenBy ops :=
  List.flatMap_cons

theorem writtenBy_append (first second : List MicroOp) :
    writtenBy (first ++ second) = writtenBy first ++ writtenBy second :=
  List.flatMap_append

/-- `ops` read no scratch register that is neither in `written` nor written by an
earlier one of them. -/
def Supplied (written : List Reg) : List MicroOp → Prop
  | [] => True
  | op :: rest =>
    (∀ reg ∈ op.sources, reg.ReadableAfter written) ∧
      Supplied (written ++ op.destinations) rest

theorem Reg.ReadableAfter.mono {written more : List Reg} {reg : Reg} (subset : written ⊆ more)
    (readable : reg.ReadableAfter written) : reg.ReadableAfter more := by
  rcases readable with general | mem
  · exact .inl general
  · exact .inr (subset mem)

namespace Supplied

variable {op : MicroOp} {ops first second rest : List MicroOp} {written more : List Reg}

theorem mono (subset : written ⊆ more) (supplied : Supplied written ops) : Supplied more ops := by
  induction ops generalizing written more with
  | nil => trivial
  | cons op rest ih =>
      rcases supplied with ⟨reads, later⟩
      constructor
      · intro reg regMem
        exact (reads reg regMem).mono subset
      · apply ih _ later
        intro reg regMem
        rcases List.mem_append.mp regMem with earlier | now
        · exact List.mem_append_left _ (subset earlier)
        · exact List.mem_append_right _ now

theorem append_iff :
    Supplied written (first ++ second) ↔
      Supplied written first ∧ Supplied (written ++ writtenBy first) second := by
  induction first generalizing written with
  | nil => simp [Supplied, writtenBy]
  | cons op rest ih =>
      simp only [List.cons_append, Supplied, ih, writtenBy, List.flatMap_cons, List.append_assoc,
        and_assoc]

/-- What a micro-operation reads was written before it. -/
theorem readable_of_split {before after : List MicroOp}
    (supplied : Supplied written (before ++ op :: after)) :
    ∀ reg ∈ op.sources, reg.ReadableAfter (written ++ writtenBy before) :=
  (append_iff.mp supplied).2.1

theorem cons (reads : ∀ reg ∈ op.sources, reg.ReadableAfter written)
    (onward : Supplied (written ++ op.destinations) rest) : Supplied written (op :: rest) :=
  ⟨reads, onward⟩

/-- Ones that write no scratch register a later one would need may stand anywhere. -/
theorem append (head : Supplied written first) (tail : Supplied written second) :
    Supplied written (first ++ second) :=
  append_iff.mpr ⟨head, tail.mono (List.subset_append_left _ _)⟩

end Supplied

/-! ## Operands -/

namespace MicroOp

variable {reg : Reg}

theorem supplied_stepRegister (general : reg.isGeneral) (amount : Word) (written : List Reg) :
    Supplied written (stepRegister reg amount) := by
  have sp : Reg.sp.isGeneral := rfl
  unfold stepRegister
  split <;> simp [Supplied, sources, Reg.ReadableAfter, general, sp]

@[simp]
theorem writtenBy_stepRegister (reg : Reg) (amount : Word) :
    writtenBy (stepRegister reg amount) = [reg] := by
  unfold stepRegister
  split <;> rfl

end MicroOp

namespace OperandPlace

/-- Once `written` are, what is in the place can be read and replaced: an address
in memory has been found. -/
def UsableAfter (written : List Reg) : OperandPlace → Prop
  | register reg => reg.isGeneral
  | memory address => address ∈ written
  | immediate _ _ => True

theorem UsableAfter.mono {written more : List Reg} {place : OperandPlace}
    (subset : written ⊆ more) (usable : place.UsableAfter written) : place.UsableAfter more := by
  cases place with
  | register reg => exact usable
  | memory address => exact subset usable
  | immediate value address => trivial

end OperandPlace

namespace Operand

variable {operand : Operand} {width : Width} {slot : OperandSlot} {stream : InstructionStream}

theorem supplied_addressOps (general : operand.reg.isGeneral) (written : List Reg) :
    Supplied written (operand.addressOps width slot stream) := by
  have steps (amount : Word) (written : List Reg) :=
    MicroOp.supplied_stepRegister general amount written
  cases mode : operand.mode <;> by_cases isPc : operand.reg = .pc <;>
    simp_all [addressOps, Supplied.append_iff, Supplied, Reg.ReadableAfter, MicroOp.sources,
      MicroOp.destinations, MicroOp.follow]

theorem usableAfter_addressOps (general : operand.reg.isGeneral) (written : List Reg) :
    (operand.place slot stream).UsableAfter
      (written ++ writtenBy (operand.addressOps width slot stream)) := by
  cases mode : operand.mode <;> by_cases isPc : operand.reg = .pc <;>
    simp_all [OperandPlace.UsableAfter, place, addressOps, writtenBy, MicroOp.destinations,
      MicroOp.follow]

end Operand

namespace Supplied

variable {rest : List MicroOp} {written : List Reg} {width : Width} {slot : OperandSlot}

/-- What follows the search for an operand may use the operand. -/
theorem resolve {operand : Operand} {stream : InstructionStream}
    (general : operand.reg.isGeneral)
    (onward : ∀ more, written ⊆ more → (operand.place slot stream).UsableAfter more →
      Supplied more rest) :
    Supplied written ((operand.resolve width slot stream).ops ++ rest) := by
  apply append_iff.mpr
  constructor
  · exact Operand.supplied_addressOps general written
  · apply onward
    · exact List.subset_append_left _ _
    · exact Operand.usableAfter_addressOps general written

variable {operand : ResolvedOperand}

theorem fetch (usable : operand.place.UsableAfter written)
    (onward : Supplied (written ++ [slot.value]) rest) :
    Supplied written (operand.fetch width slot :: rest) := by
  unfold ResolvedOperand.fetch MicroOp.readRegister
  cases place : operand.place with
  | register reg =>
      rw [place] at usable
      dsimp only
      split
      · exact .cons (by simp [MicroOp.sources]) onward
      · apply Supplied.cons _ onward
        rintro read (_ | ⟨_, ⟨⟩⟩)
        exact .inl usable
  | memory address =>
      rw [place] at usable
      apply Supplied.cons _ onward
      rintro read (_ | ⟨_, ⟨⟩⟩)
      exact .inr usable
  | immediate value address => exact .cons (by simp [MicroOp.sources]) onward

/-- A result is assigned and gives the condition codes. -/
theorem settle {src : Reg} {extend : Bool} {space : AccessSpace} {rule : FlagRule}
    (usable : operand.place.UsableAfter written) (computed : src ∈ written) :
    Supplied written (operand.assign src width extend space ++ [.evalFlags rule src width]) := by
  apply append_iff.mpr
  constructor
  · cases place : operand.place <;> cases width <;> cases extend <;>
      simp_all [ResolvedOperand.assign, Supplied, OperandPlace.UsableAfter, Reg.ReadableAfter,
        MicroOp.sources, MicroOp.destinations]
  · simp [Supplied, MicroOp.sources, Reg.ReadableAfter, computed]

/-- A jump goes to an address that was found. -/
theorem target {target : Reg} {resolve : List MicroOp}
    (found : operand.target? = some (target, resolve)) (usable : operand.place.UsableAfter written)
    (onward : ∀ more, written ⊆ more → target ∈ more → Supplied more rest) :
    Supplied written (resolve ++ rest) := by
  unfold ResolvedOperand.target? at found
  cases place : operand.place with
  | register reg =>
      rw [place] at found
      contradiction
  | memory address =>
      rw [place] at found usable
      cases found
      exact onward written (List.Subset.refl _) usable
  | immediate value address =>
      rw [place] at found
      cases found
      apply Supplied.cons (by simp [MicroOp.sources])
      exact onward _ (List.subset_append_left _ _) (by simp [MicroOp.destinations])

theorem push {src : Reg} (computed : src ∈ written)
    (onward : ∀ more, written ⊆ more → Supplied more rest) :
    Supplied written (MicroOp.push src ++ rest) := by
  have pointer : Reg.sp.isGeneral := rfl
  apply append_iff.mpr
  constructor
  · apply append (MicroOp.supplied_stepRegister pointer _ _)
    simp [Supplied, MicroOp.sources, Reg.ReadableAfter, pointer, computed]
  · exact onward _ (List.subset_append_left _ _)

theorem pop {dst : Reg}
    (onward : ∀ more, written ⊆ more → dst ∈ more → Supplied more rest) :
    Supplied written (MicroOp.pop dst ++ rest) := by
  have pointer : Reg.sp.isGeneral := rfl
  apply append_iff.mpr
  constructor
  · apply Supplied.cons
    · simp [MicroOp.sources, Reg.ReadableAfter, pointer]
    · exact MicroOp.supplied_stepRegister pointer _ _
  · apply onward
    · exact List.subset_append_left _ _
    · simp [MicroOp.pop, writtenBy, MicroOp.destinations]

end Supplied

/-! ## Instructions -/

theorem Reg.isGeneral_pairSecond {reg : Reg} (general : reg.isGeneral) :
    reg.pairSecond.isGeneral := by
  cases reg <;> first | rfl | exact general

namespace Instruction

variable (instruction : Instruction)

theorem isGeneral_source : instruction.source.reg.isGeneral :=
  Operand.isGeneral_ofField _

theorem isGeneral_destination : instruction.destination.reg.isGeneral :=
  Operand.isGeneral_ofField _

theorem isGeneral_registerField : instruction.registerField.isGeneral :=
  Reg.isGeneral_ofField _

theorem isGeneral_lowRegister : instruction.lowRegister.isGeneral :=
  Reg.isGeneral_ofField _

/-- Behind the source and the search for the destination both can be used. -/
theorem supplied_readSource {rest : List MicroOp}
    (onward : ∀ more, .s0 ∈ more → instruction.readSource.2.place.UsableAfter more →
      Supplied more rest) :
    Supplied [] (instruction.readSource.1 ++ rest) := by
  unfold readSource at onward ⊢
  dsimp only at onward ⊢
  rw [List.append_assoc]
  apply Supplied.resolve instruction.isGeneral_source
  intro found _ usable
  apply Supplied.fetch usable
  apply Supplied.resolve instruction.isGeneral_destination
  intro more subset usable
  exact onward more (subset (by simp [OperandSlot.value])) usable

theorem supplied_combine {compute : List MicroOp} (computes : Supplied [.s0, .d0] compute)
    (result : .t0 ∈ writtenBy compute) (rule : FlagRule) :
    Supplied [] (instruction.combine compute rule) := by
  unfold combine
  dsimp only
  simp only [List.append_assoc, List.cons_append]
  apply instruction.supplied_readSource
  intro read source usable
  apply Supplied.fetch usable
  apply Supplied.append_iff.mpr
  constructor
  · exact computes.mono (by simp [source, OperandSlot.value])
  · have computed : .t0 ∈ (read ++ [.d0]) ++ writtenBy compute := List.mem_append_right _ result
    apply Supplied.settle (usable.mono _) computed
    rw [List.append_assoc]
    exact List.subset_append_left _ _

theorem supplied_compare {compute : MicroOp} (reads : compute.sources ⊆ [.s0, .d0])
    (result : .t0 ∈ compute.destinations) (rule : FlagRule) :
    Supplied [] (instruction.compare compute rule) := by
  apply instruction.supplied_readSource
  intro read source usable
  apply Supplied.fetch usable
  apply Supplied.cons
  · intro reg regMem
    rcases List.mem_cons.mp (reads regMem) with rfl | other
    · exact .inr (List.mem_append_left _ source)
    · rw [List.mem_singleton.mp other]
      exact .inr (List.mem_append_right _ List.mem_cons_self)
  · exact ⟨by simp [MicroOp.sources, Reg.ReadableAfter, result], trivial⟩

theorem supplied_move : Supplied [] instruction.move := by
  unfold move
  dsimp only
  rw [List.append_assoc]
  apply instruction.supplied_readSource
  intro read source usable
  exact Supplied.settle usable source

/-- Behind the search for the destination it can be used. -/
theorem supplied_resolveDestination {width : Width} {written : List Reg} {rest : List MicroOp}
    (onward : ∀ more, written ⊆ more →
      (instruction.resolveDestination width).place.UsableAfter more → Supplied more rest) :
    Supplied written ((instruction.resolveDestination width).ops ++ rest) :=
  Supplied.resolve instruction.isGeneral_destination onward

theorem supplied_modify {compute : MicroOp} (reads : compute.sources ⊆ [.d0])
    (result : .t0 ∈ compute.destinations) (rule : FlagRule) :
    Supplied [] (instruction.modify compute rule) := by
  unfold modify
  dsimp only
  rw [List.append_assoc]
  apply instruction.supplied_resolveDestination
  intro found _ usable
  apply Supplied.fetch usable
  apply Supplied.cons
  · intro reg regMem
    rw [List.mem_singleton.mp (reads regMem)]
    exact .inr (List.mem_append_right _ List.mem_cons_self)
  · apply Supplied.settle (usable.mono _) (List.mem_append_right _ result)
    rw [List.append_assoc]
    exact List.subset_append_left _ _

theorem supplied_overwrite {compute : MicroOp} (reads : compute.sources = [])
    (result : .t0 ∈ compute.destinations) (width : Width) (extend : Bool) (rule : FlagRule) :
    Supplied [] (instruction.overwrite compute width extend rule) := by
  unfold overwrite
  dsimp only
  rw [List.append_assoc]
  apply instruction.supplied_resolveDestination
  intro found _ usable
  apply Supplied.cons
  · simp [reads]
  · exact Supplied.settle (usable.mono (List.subset_append_left _ _))
      (List.mem_append_right _ result)

theorem supplied_test : Supplied [] instruction.test := by
  apply instruction.supplied_resolveDestination
  intro found _ usable
  apply Supplied.fetch usable
  exact ⟨by simp [MicroOp.sources, Reg.ReadableAfter, OperandSlot.value], trivial⟩

theorem supplied_readOperand (width : Width) {rest : List MicroOp}
    (onward : ∀ more, .s0 ∈ more → Supplied more rest) :
    Supplied [] (instruction.readOperand width ++ rest) := by
  unfold readOperand
  dsimp only
  rw [List.append_assoc]
  apply Supplied.resolve instruction.isGeneral_destination
  intro found _ usable
  apply Supplied.fetch usable
  exact onward _ (List.mem_append_right _ List.mem_cons_self)

theorem supplied_extended {compute : MicroOp}
    (reads : ∀ reg ∈ compute.sources, reg.isGeneral ∨ reg = .s0) (rule : FlagRule) :
    Supplied [] (instruction.extended compute rule) := by
  apply instruction.supplied_readOperand
  intro more source
  apply Supplied.cons
  · intro reg regMem
    rcases reads reg regMem with general | rfl
    · exact .inl general
    · exact .inr source
  · exact ⟨by simp [MicroOp.sources, Reg.ReadableAfter, isGeneral_registerField], trivial⟩

theorem supplied_exclusiveOr : Supplied [] instruction.exclusiveOr := by
  unfold exclusiveOr
  dsimp only
  simp only [List.append_assoc, List.cons_append, List.nil_append]
  have counted := instruction.isGeneral_registerField
  have copied : Supplied [] [MicroOp.readRegister .s0 instruction.registerField
      instruction.stream] := by
    unfold MicroOp.readRegister
    split <;> simp [Supplied, MicroOp.sources, Reg.ReadableAfter, counted]
  have source : (MicroOp.readRegister .s0 instruction.registerField
      instruction.stream).destinations = [.s0] := by
    unfold MicroOp.readRegister
    split <;> rfl
  apply Supplied.cons copied.1
  rw [source]
  apply instruction.supplied_resolveDestination
  intro found subset usable
  have source : .s0 ∈ found := subset List.mem_cons_self
  apply Supplied.fetch usable
  apply Supplied.cons
  · simp [MicroOp.sources, Reg.ReadableAfter, source, OperandSlot.value]
  · apply Supplied.settle (usable.mono _) (List.mem_append_right _ List.mem_cons_self)
    rw [List.append_assoc]
    exact List.subset_append_left _ _

theorem supplied_jump : Supplied [] instruction.jump := by
  unfold jump
  dsimp only
  split
  · apply instruction.supplied_resolveDestination
    intro found _ _
    exact ⟨by simp [MicroOp.sources], trivial⟩
  · rename_i target resolve place
    rw [List.append_assoc]
    apply instruction.supplied_resolveDestination
    intro found _ usable
    apply Supplied.target place usable
    intro more _ targetMem
    exact ⟨by simp [MicroOp.sources, Reg.ReadableAfter, targetMem], trivial⟩

theorem supplied_jumpToSubroutine : Supplied [] instruction.jumpToSubroutine := by
  have link := instruction.isGeneral_registerField
  unfold jumpToSubroutine
  dsimp only
  split
  · apply instruction.supplied_resolveDestination
    intro found _ _
    exact ⟨by simp [MicroOp.sources], trivial⟩
  · rename_i target resolve place
    simp only [List.append_assoc, List.cons_append]
    apply instruction.supplied_resolveDestination
    intro found _ usable
    apply Supplied.target place usable
    intro reached _ targetMem
    apply Supplied.cons
    · simp [MicroOp.sources, Reg.ReadableAfter, link]
    · apply Supplied.push (List.mem_append_right _ List.mem_cons_self)
      intro more subset
      have pc : Reg.pc.isGeneral := rfl
      have target : target ∈ more := subset (List.mem_append_left _ targetMem)
      simp [Supplied, MicroOp.sources, Reg.ReadableAfter, pc, target]

theorem supplied_returnFromSubroutine : Supplied [] instruction.returnFromSubroutine := by
  have link := instruction.isGeneral_lowRegister
  unfold returnFromSubroutine
  dsimp only
  split
  · apply Supplied.pop
    intro more _ popped
    simp [Supplied, MicroOp.sources, Reg.ReadableAfter, popped]
  · apply Supplied.cons
    · simp [MicroOp.sources, Reg.ReadableAfter, link]
    · apply Supplied.pop
      intro more subset popped
      have target : .t1 ∈ more := subset (List.mem_append_right _ List.mem_cons_self)
      simp [Supplied, MicroOp.sources, Reg.ReadableAfter, popped, target]

theorem supplied_mark : Supplied [] instruction.mark := by
  have pc : Reg.pc.isGeneral := rfl
  have frame : Reg.r5.isGeneral := rfl
  unfold mark
  simp only [List.cons_append, List.nil_append]
  apply Supplied.cons
  · simp [MicroOp.sources, Reg.ReadableAfter, pc]
  · apply Supplied.cons
    · simp [MicroOp.sources, Reg.ReadableAfter, frame]
    · apply Supplied.pop
      intro more subset popped
      have target : .t1 ∈ more := subset (List.mem_append_right _ List.mem_cons_self)
      simp [Supplied, MicroOp.sources, Reg.ReadableAfter, popped, target]

theorem supplied_returnFromInterrupt {inhibit : List MicroOp}
    (independent : Supplied [] inhibit) :
    Supplied [] (instruction.returnFromInterrupt inhibit) := by
  unfold returnFromInterrupt
  simp only [List.append_assoc, List.cons_append]
  apply Supplied.pop
  intro first _ pc
  apply Supplied.pop
  intro second subset status
  apply Supplied.cons
  · simp [MicroOp.sources, Reg.ReadableAfter, status]
  · apply Supplied.append (independent.mono (List.nil_subset _))
    have target : .t0 ∈ second := subset pc
    simp [Supplied, MicroOp.sources, Reg.ReadableAfter, MicroOp.destinations, target]

theorem supplied_moveFromPrevious (space : Space) :
    Supplied [] (instruction.moveFromPrevious space) := by
  unfold moveFromPrevious
  dsimp only
  simp only [List.append_assoc, List.cons_append]
  apply Supplied.resolve instruction.isGeneral_destination
  intro found _ usable
  have pushes (more : List Reg) (source : .s0 ∈ more) :
      Supplied more (MicroOp.push .s0 ++ [.evalFlags .logical .s0 .word]) := by
    apply Supplied.push source
    intro later subset
    simp [Supplied, MicroOp.sources, Reg.ReadableAfter, subset source]
  have read : .s0 ∈ found ++ [.s0] := List.mem_append_right _ List.mem_cons_self
  split
  · rename_i reg place
    change (instruction.destination.place .source instruction.stream) = _ at place
    rw [place] at usable
    have general : reg.isGeneral := usable
    split
    · exact .cons (by simp [MicroOp.sources]) (pushes _ read)
    · exact .cons (by simp [MicroOp.sources, Reg.ReadableAfter, general]) (pushes _ read)
  · rename_i address place
    change (instruction.destination.place .source instruction.stream) = _ at place
    rw [place] at usable
    have addressMem : address ∈ found := usable
    exact .cons (by simp [MicroOp.sources, Reg.ReadableAfter, addressMem]) (pushes _ read)
  · exact .cons (by simp [MicroOp.sources]) (pushes _ read)

theorem supplied_moveToPrevious (space : Space) :
    Supplied [] (instruction.moveToPrevious space) := by
  unfold moveToPrevious
  dsimp only
  simp only [List.append_assoc]
  apply Supplied.pop
  intro popped _ value
  apply instruction.supplied_resolveDestination
  intro found subset usable
  have value : .t0 ∈ found := subset value
  split
  · simp [Supplied, MicroOp.sources, Reg.ReadableAfter, value]
  · exact Supplied.settle usable value

/-- No program reads a scratch register before it has written it. -/
theorem supplied_program : Supplied [] instruction.program := by
  have counted := instruction.isGeneral_registerField
  have second := Reg.isGeneral_pairSecond counted
  unfold program
  cases opcode : instruction.opcode
  case jmp => exact instruction.supplied_jump
  case rti => exact instruction.supplied_returnFromInterrupt trivial
  case rtt => exact instruction.supplied_returnFromInterrupt (by simp [Supplied, MicroOp.sources])
  case jsr => exact instruction.supplied_jumpToSubroutine
  case rts => exact instruction.supplied_returnFromSubroutine
  case mark => exact instruction.supplied_mark
  case mov => exact instruction.supplied_move
  case tst => exact instruction.supplied_test
  case xor => exact instruction.supplied_exclusiveOr
  case mtps =>
    apply instruction.supplied_readOperand
    intro more source
    simp [Supplied, MicroOp.sources, Reg.ReadableAfter, source]
  case mfpi | mfpd => exact instruction.supplied_moveFromPrevious _
  case mtpi | mtpd => exact instruction.supplied_moveToPrevious _
  case cmp | bit =>
    exact instruction.supplied_compare (List.Subset.refl _) List.mem_cons_self _
  case bic | bis | add | sub =>
    apply instruction.supplied_combine
    · simp [Supplied, MicroOp.sources, MicroOp.destinations, Reg.ReadableAfter]
    · simp [writtenBy, MicroOp.destinations]
  case mul | div | ash | ashc =>
    apply instruction.supplied_extended
    simp [MicroOp.sources, counted, second]
  case clr | sxt | mfps => exact instruction.supplied_overwrite rfl List.mem_cons_self _ _ _
  case com | inc | dec | neg | adc | sbc | ror | rol | asr | asl | swab =>
    exact instruction.supplied_modify (by simp [MicroOp.sources]) List.mem_cons_self _
  -- What is left names no scratch register.
  all_goals simp [branch, loop, Supplied, MicroOp.sources, Reg.ReadableAfter, counted]

end Instruction

/-- Neither does the entry to a handler. -/
theorem supplied_entryProgram (vector : Word) : Supplied [] (entryProgram vector) := by
  have pc : Reg.pc.isGeneral := rfl
  have sp : Reg.sp.isGeneral := rfl
  simp [entryProgram, Supplied, MicroOp.sources, MicroOp.destinations, Reg.ReadableAfter, pc, sp]

end Pdp11
