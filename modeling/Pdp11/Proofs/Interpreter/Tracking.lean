import Pdp11.Instruction.Stream
import Pdp11.Proofs.Execution
import Pdp11.Proofs.Interpreter.Memory

/-!
# A machine ahead of the interpreter

The machine has read a whole instruction before it looks for the operands,
while the interpreter consumes one word after another. In between the two
agree on everything but the program counter, and that differs by the words that
the interpreter has still to consume.
-/

namespace Pdp11

universe u

variable {δ : Type u}

/-- Nothing is there to be served, and relocation is off. -/
structure Machine.Calm (machine : Machine δ) : Prop where
  running : machine.runState = .running
  untrapped : machine.traps.first? = none
  unasked : machine.requests.strongestAbove? machine.psw.priority.toNat = none
  unwritten : machine.pswWritten = false
  unrelocated : machine.mmu.enabled = false

theorem Machine.Calm.setReg {machine : Machine δ} (calm : machine.Calm) (reg : Reg)
    (value : Word) : (machine.setReg reg value).Calm :=
  ⟨calm.running, calm.untrapped, calm.unasked, calm.unwritten, calm.unrelocated⟩

theorem Reg.ne_of_scratch {reg other : Reg} (scratch : reg.isGeneral = false)
    (general : other.isGeneral) : reg ≠ other := by
  rintro rfl
  rw [general] at scratch
  contradiction

namespace View

/-- From `cursor` on memory holds `words`. -/
def Streams (view : View) : Word → List Word → Prop
  | _, [] => True
  | cursor, word :: rest =>
    view.load? cursor .word = some word ∧ view.Streams (cursor + 2) rest

/-- The machine is ahead of the interpreter by the words of `stream`. -/
structure Tracks (view : View) (stream : InstructionStream) (machine : Machine δ) : Prop where
  calm : machine.Calm
  psw : machine.psw = view.psw
  ram : machine.ram = view.ram
  registers (cell : Cell) : cell.isScratch = false → cell ≠ .programCounter →
    machine.registers.get cell = view.registers.get cell
  cursor : view.reg .pc = stream.cursor
  pc : machine.pc = stream.cursor + 2 * BitVec.ofNat 16 stream.words.length
  streams : view.Streams stream.cursor stream.words

theorem next?_eq_some_iff {view after : View} {word : Word} :
    view.next? = some (word, after) ↔
      view.load? (view.reg .pc) .word = some word ∧
        after = view.setReg .pc (view.reg .pc + 2) := by
  simp only [next?, Option.bind_eq_bind, Option.bind_eq_some_iff, Option.pure_def,
    Option.some.injEq, Prod.mk.injEq]
  constructor
  · rintro ⟨_, loads, rfl, rfl⟩
    exact ⟨loads, rfl⟩
  · rintro ⟨loads, rfl⟩
    exact ⟨word, loads, rfl, rfl⟩

theorem stepDown?_eq_some_iff {view after : View} {reg : Reg} {amount : Word} :
    view.stepDown? reg amount = some after ↔
      reg ≠ .pc ∧
        (reg = .sp → view.psw.mode = .kernel → ¬ view.reg reg - amount < stackLimit) ∧
          after = view.setReg reg (view.reg reg - amount) := by
  constructor
  · intro lowers
    simp only [stepDown?] at lowers
    split at lowers
    · contradiction
    · rename_i permitted
      cases lowers
      exact ⟨fun isPc => permitted (.inl isPc),
        fun isSp kernel below => permitted (.inr ⟨isSp, kernel, below⟩), rfl⟩
  · rintro ⟨notPc, above, rfl⟩
    simp only [stepDown?]
    apply if_neg
    rintro (isPc | ⟨isSp, kernel, below⟩)
    · exact notPc isPc
    · exact above isSp kernel below

theorem load?_of_ram {view other : View} (same : other.ram = view.ram) (address : Word)
    (width : Width) : other.load? address width = view.load? address width := by
  unfold load?
  rw [same]

theorem Streams.of_ram {view : View} {cursor : Word} {words : List Word}
    (streams : view.Streams cursor words) (other : View) (same : other.ram = view.ram) :
    other.Streams cursor words := by
  induction words generalizing cursor with
  | nil => trivial
  | cons word rest ih => exact ⟨(load?_of_ram same _ _).trans streams.1, ih streams.2⟩

theorem reg_setReg (view : View) (written asked : Reg) (value : Word) :
    (view.setReg written value).reg asked = if written = asked then value else view.reg asked := by
  simp [reg, setReg, Reg.cell_inj]

namespace Tracks

variable {view : View} {stream : InstructionStream} {machine : Machine δ}

theorem reg (tracks : view.Tracks stream machine) {reg : Reg} (general : reg.isGeneral)
    (notPc : reg ≠ .pc) : machine.reg reg = view.reg reg := by
  rw [Machine.reg, View.reg, tracks.psw]
  apply tracks.registers
  · rw [Reg.isScratch_cell, general]
    rfl
  · intro isPc
    exact notPc (Reg.cell_inj.mp (isPc : reg.cell view.psw = Reg.cell .pc view.psw))

theorem setScratch (tracks : view.Tracks stream machine) {reg : Reg}
    (scratch : reg.isGeneral = false) (value : Word) :
    view.Tracks stream (machine.setReg reg value) where
  calm := tracks.calm.setReg reg value
  psw := tracks.psw
  ram := tracks.ram
  registers := by
    intro cell visible notPc
    rw [Machine.setReg, RegisterFile.get_set,
      if_neg (Reg.cell_ne_of_scratch scratch visible machine.psw)]
    exact tracks.registers cell visible notPc
  cursor := tracks.cursor
  pc := by
    change (machine.setReg reg value).reg .pc = _
    rw [Machine.reg_setReg, if_neg (Reg.ne_of_scratch scratch rfl)]
    exact tracks.pc
  streams := tracks.streams

theorem setReg (tracks : view.Tracks stream machine) {reg : Reg} (notPc : reg ≠ .pc)
    (value : Word) : (view.setReg reg value).Tracks stream (machine.setReg reg value) where
  calm := tracks.calm.setReg reg value
  psw := tracks.psw
  ram := tracks.ram
  registers := by
    intro cell visible cellNotPc
    rw [Machine.setReg, View.setReg, RegisterFile.get_set, RegisterFile.get_set, tracks.psw]
    split
    · rfl
    · exact tracks.registers cell visible cellNotPc
  cursor := by
    rw [reg_setReg, if_neg notPc]
    exact tracks.cursor
  pc := by
    change (machine.setReg reg value).reg .pc = _
    rw [Machine.reg_setReg, if_neg notPc]
    exact tracks.pc
  streams := tracks.streams.of_ram _ rfl

theorem setMmu (tracks : view.Tracks stream machine) {mmu : Mmu}
    (off : mmu.enabled = machine.mmu.enabled) :
    view.Tracks stream { machine with mmu := mmu } where
  calm := ⟨tracks.calm.running, tracks.calm.untrapped, tracks.calm.unasked,
    tracks.calm.unwritten, off.trans tracks.calm.unrelocated⟩
  psw := tracks.psw
  ram := tracks.ram
  registers := tracks.registers
  cursor := tracks.cursor
  pc := tracks.pc
  streams := tracks.streams

/-- The interpreter consumes the word at the head of the stream. -/
theorem next {word : Word} {after : View} (tracks : view.Tracks stream machine)
    (nonempty : stream.words ≠ []) (next : view.next? = some (word, after)) :
    view.load? stream.cursor .word = some word ∧ stream.head = word ∧
      after = view.setReg .pc stream.tail.cursor ∧ after.Tracks stream.tail machine := by
  obtain ⟨loads, rfl⟩ := next?_eq_some_iff.mp next
  obtain ⟨cursor, words⟩ := stream
  cases words with
  | nil => contradiction
  | cons head rest =>
      have atCursor := tracks.cursor
      obtain ⟨loadsHead, streamsRest⟩ := tracks.streams
      rw [atCursor] at loads ⊢
      refine ⟨loads, Option.some.inj (loadsHead.symm.trans loads), rfl, ?_⟩
      constructor
      · exact tracks.calm
      · exact tracks.psw
      · exact tracks.ram
      · intro cell visible notPc
        have other : Reg.pc.cell view.psw ≠ cell := Ne.symm notPc
        rw [View.setReg, RegisterFile.get_set, if_neg other]
        exact tracks.registers cell visible notPc
      · rw [reg_setReg, if_pos rfl]
        rfl
      · rw [tracks.pc]
        change cursor + 2 * BitVec.ofNat 16 (rest.length + 1) =
          cursor + 2 + 2 * BitVec.ofNat 16 rest.length
        apply BitVec.eq_of_toNat_eq
        simp
        omega
      · exact streamsRest.of_ram _ rfl

end Tracks

/-! ## Once every word is consumed -/

/-- Machine and interpreter differ in scratch registers alone. -/
structure Agrees (view : View) (machine : Machine δ) : Prop where
  calm : machine.Calm
  psw : machine.psw = view.psw
  ram : machine.ram = view.ram
  registers (cell : Cell) : cell.isScratch = false →
    machine.registers.get cell = view.registers.get cell

theorem Tracks.agrees {view : View} {stream : InstructionStream} {machine : Machine δ}
    (tracks : view.Tracks stream machine) (consumed : stream.words = []) :
    view.Agrees machine where
  calm := tracks.calm
  psw := tracks.psw
  ram := tracks.ram
  registers := by
    intro cell visible
    by_cases isPc : cell = .programCounter
    · subst isPc
      have ahead := tracks.pc
      rw [consumed, ← tracks.cursor] at ahead
      exact ahead.trans (BitVec.add_zero _)
    · exact tracks.registers cell visible isPc

namespace Agrees

variable {view : View} {machine : Machine δ}

theorem reg (agrees : view.Agrees machine) {reg : Reg} (general : reg.isGeneral) :
    machine.reg reg = view.reg reg := by
  rw [Machine.reg, View.reg, agrees.psw]
  apply agrees.registers
  rw [Reg.isScratch_cell, general]
  rfl

theorem setReg (agrees : view.Agrees machine) (reg : Reg) (value : Word) :
    (view.setReg reg value).Agrees (machine.setReg reg value) where
  calm := agrees.calm.setReg reg value
  psw := agrees.psw
  ram := agrees.ram
  registers := by
    intro cell visible
    rw [Machine.setReg, View.setReg, RegisterFile.get_set, RegisterFile.get_set, agrees.psw]
    split
    · rfl
    · exact agrees.registers cell visible

theorem setScratch (agrees : view.Agrees machine) {reg : Reg} (scratch : reg.isGeneral = false)
    (value : Word) : view.Agrees (machine.setReg reg value) where
  calm := agrees.calm.setReg reg value
  psw := agrees.psw
  ram := agrees.ram
  registers := by
    intro cell visible
    rw [Machine.setReg, RegisterFile.get_set,
      if_neg (Reg.cell_ne_of_scratch scratch visible machine.psw)]
    exact agrees.registers cell visible

end Agrees

end View

end Pdp11
