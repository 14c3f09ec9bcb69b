import Pdp11.BranchPredictor
import Pdp11.Machine.Bus
import Pdp11.Machine.Config
import Pdp11.Machine.Error
import Pdp11.Memory.Ram
import Pdp11.Register.File
import Pdp11.Trap.Set

/-!
# The machine

A machine is a processor with its memory and the devices on its bus. Registers
are read and written as the current status word sees them.
-/

namespace Pdp11

universe u

/-- Whether the machine carries out instructions. -/
inductive RunState
  | running
  /-- Waiting for an interrupt. -/
  | waiting
  | halted
  /-- Stopped for good by an internal error. -/
  | fatal (error : MachineError)
deriving DecidableEq

namespace RunState

/-- The machine fetches instructions. -/
def isRunning : RunState → Bool
  | running => true
  | waiting | halted | fatal _ => false

/-- The internal error that stopped the machine. -/
def error? : RunState → Option MachineError
  | fatal error => some error
  | running | waiting | halted => none

end RunState

/-- The processor, its memory and the devices on its bus. What the
instruction in progress leaves for the end of its step stands in
`pswWritten` and `traceInhibited`. -/
structure Machine (δ : Type u) where
  config : Config
  registers : RegisterFile
  psw : Psw
  ram : Ram
  mmu : Mmu
  predictor : BranchPredictor
  traps : TrapSet
  requests : InterruptRequests
  runState : RunState
  /-- The instruction stored to the status word. -/
  pswWritten : Bool
  /-- The trace trap is put off past this instruction. -/
  traceInhibited : Bool
  devices : δ

namespace Machine

variable {δ : Type u}

/-- The machine as it is switched on. -/
def powerUp (config : Config) (ram : Ram) (devices : δ) : Machine δ where
  config := config
  registers := RegisterFile.cleared.set .programCounter config.bootPc
  psw := .ofBits config.bootPsw
  ram := ram
  mmu := .new config.model
  predictor := .fresh
  traps := .none
  requests := .none
  runState := .running
  pswWritten := false
  traceInhibited := false
  devices := devices

/-- A machine with cleared memory; the configuration is taken as it is. -/
def ofConfig (config : Config) (devices : δ) : Machine δ :=
  powerUp config (.zeroed config.memoryBytes) devices

/-- A machine with cleared memory, if the configuration makes one. -/
def ofConfig? (config : Config) (devices : δ) : Except ConfigError (Machine δ) :=
  config.validate.map fun _ => ofConfig config devices

/-- Switch the machine off and on; memory keeps its contents. -/
def reset (machine : Machine δ) : Machine δ :=
  powerUp machine.config machine.ram machine.devices

/-- The word in a register, as the current status word sees it. -/
def reg (machine : Machine δ) (reg : Reg) : Word :=
  machine.registers.get (reg.cell machine.psw)

/-- Put `value` into a register, as the current status word sees it. -/
def setReg (machine : Machine δ) (reg : Reg) (value : Word) : Machine δ :=
  { machine with registers := machine.registers.set (reg.cell machine.psw) value }

/-- The address of the next word of the instruction stream. -/
def pc (machine : Machine δ) : Word :=
  machine.registers.get .programCounter

/-- Go on at `value`. -/
def setPc (machine : Machine δ) (value : Word) : Machine δ :=
  { machine with registers := machine.registers.set .programCounter value }

/-- The stack pointer of `mode`, whichever mode the machine is in. -/
def stackPointer (machine : Machine δ) (mode : Mode) : Word :=
  machine.registers.get (.stackPointer mode)

/-- Put `value` into the stack pointer of `mode`. -/
def setStackPointer (machine : Machine δ) (mode : Mode) (value : Word) : Machine δ :=
  { machine with registers := machine.registers.set (.stackPointer mode) value }

@[simp]
theorem reg_setReg (machine : Machine δ) (written asked : Reg) (value : Word) :
    (machine.setReg written value).reg asked =
      if written = asked then value else machine.reg asked := by
  simp [reg, setReg, Reg.cell_inj]

/-- Leave a trap pending. -/
def raise (machine : Machine δ) (kind : TrapClass) : Machine δ :=
  { machine with traps := machine.traps.insert kind }

/-- Read a word of memory past the processor. -/
def examine? (machine : Machine δ) (address : PhysicalAddress) : Option Word :=
  if isOdd address then none else machine.ram.readWord? address.toNat

/-- Write a word of memory past the processor. -/
def deposit? (machine : Machine δ) (address : PhysicalAddress) (value : Word) :
    Option (Machine δ) :=
  if isOdd address then
    none
  else
    (machine.ram.writeWord? address.toNat value).map fun ram => { machine with ram := ram }

/-- Deposit `words` one after another, as many as fit; the flag tells whether
all did. -/
def load (machine : Machine δ) (address : PhysicalAddress) : List Word → Bool × Machine δ
  | [] => (true, machine)
  | word :: rest =>
    match machine.deposit? address word with
    | none => (false, machine)
    | some deposited => deposited.load (address + 2) rest

end Machine

end Pdp11
