import Pdp11.Machine.Core
import Pdp11.Relocation.Translation
import Pdp11.Relocation.Window

/-!
# Memory accesses

Every access of an instruction goes the same way: a word must be at an even
address, the address is translated, and memory, a register of the processor
itself or a device answers at the physical address.
-/

namespace Pdp11

universe u

/-- Why an access fails. -/
inductive AccessError
  | oddAddress
  | nonexistent
  | mmuAbort (cause : AbortCause)
deriving DecidableEq

namespace AccessError

/-- The error as the operator reads it. -/
def message : AccessError → String
  | oddAddress => "odd address"
  | nonexistent => "nonexistent memory"
  | mmuAbort cause => "memory management abort: " ++ cause.message

/-- The trap that an instruction raises when an access of it fails. -/
def trapClass : AccessError → TrapClass
  | oddAddress => .oddAddress
  | nonexistent => .busError
  | mmuAbort _ => .mmuAbort

end AccessError

namespace Machine

variable {δ : Type u}

/-- What the processor itself answers at an even address of the device
registers. -/
def readInternal? (machine : Machine δ) (address : PhysicalAddress) : Option Word :=
  if address = pswAddress then
    some machine.psw.bits
  else
    machine.mmu.read? address

/-- Store to the status word, which keeps its trace flag. -/
def storePsw (machine : Machine δ) (value : Word) : Machine δ :=
  { machine with
    psw := { Psw.ofBits value with trace := machine.psw.trace }
    pswWritten := true }

/-- Store to a register of the processor itself. -/
def writeInternal (machine : Machine δ) (address : PhysicalAddress) (value : Word) :
    Machine δ :=
  if address = pswAddress then
    machine.storePsw value
  else
    match machine.mmu.write? address value with
    | none => machine
    | some mmu => { machine with mmu := mmu }

variable [Bus δ]

/-- Read the word at an even address of the device registers: a register of the
processor itself answers first, then the devices are asked. -/
def readIoWord (machine : Machine δ) (address : PhysicalAddress) :
    Except AccessError Word × Machine δ :=
  match machine.readInternal? address with
  | some value => (.ok value, machine)
  | none =>
    let (answer, devices) := Bus.read machine.devices address
    (answer.mapError fun _ => .nonexistent, { machine with devices := devices })

/-- Read at a physical address. A byte of the device registers
is cut out of its word. -/
def readPhysical (machine : Machine δ) (address : PhysicalAddress) (width : Width) :
    Except AccessError Word × Machine δ :=
  match Region.of address machine.ram.size with
  | .ram offset =>
    match machine.ram.read? offset width with
    | some value => (.ok value, machine)
    | none => (.error .nonexistent, machine)
  | .ioPage =>
    let (answer, machine) := machine.readIoWord (wordAddress address)
    (answer.map fun word => selectWidth word address width, machine)
  | .nonexistent => (.error .nonexistent, machine)

/-- A byte store to a register of the processor keeps the other byte; a device
sees the byte and the address it is for. -/
def writeIo (machine : Machine δ) (address : PhysicalAddress) (value : Word) (width : Width) :
    Except AccessError Unit × Machine δ :=
  match machine.readInternal? (wordAddress address) with
  | some old =>
    let stored :=
      match width with
      | .word => value
      | .byte => replaceByte old address (lowByte value)
    (.ok (), machine.writeInternal (wordAddress address) stored)
  | none =>
    let (answer, devices) := Bus.write machine.devices address (value &&& width.mask) width
    (answer.mapError fun _ => .nonexistent, { machine with devices := devices })

/-- Write at a physical address. -/
def writePhysical (machine : Machine δ) (address : PhysicalAddress) (value : Word)
    (width : Width) : Except AccessError Unit × Machine δ :=
  match Region.of address machine.ram.size with
  | .ram offset =>
    match machine.ram.write? offset value width with
    | some ram => (.ok (), { machine with ram := ram })
    | none => (.error .nonexistent, machine)
  | .ioPage => machine.writeIo address value width
  | .nonexistent => (.error .nonexistent, machine)

/-- Translate `address`; a page may ask for a trap and still let the access
through. -/
def translate (machine : Machine δ) (mode : Mode) (cycle : MemoryCycle) (address : Word) :
    Except AccessError PhysicalAddress × Machine δ :=
  let (translation, mmu) := machine.mmu.translate mode cycle address
  let machine := { machine with mmu := mmu }
  match translation with
  | .error cause => (.error (.mmuAbort cause), machine)
  | .ok { physical, trap } =>
    (.ok physical, if trap then machine.raise .mmuTrap else machine)

/-- Read at an address of `mode`. An odd address of a word is
refused before the unit sees it. -/
def read (machine : Machine δ) (mode : Mode) (cycle : MemoryCycle) (address : Word)
    (width : Width) : Except AccessError Word × Machine δ :=
  if width = .word ∧ isOdd address then
    (.error .oddAddress, machine)
  else
    match machine.translate mode cycle address with
    | (.error error, machine) => (.error error, machine)
    | (.ok physical, machine) => machine.readPhysical physical width

/-- Write at an address of `mode`. -/
def write (machine : Machine δ) (mode : Mode) (address : Word) (value : Word)
    (width : Width) : Except AccessError Unit × Machine δ :=
  if width = .word ∧ isOdd address then
    (.error .oddAddress, machine)
  else
    match machine.translate mode .write address with
    | (.error error, machine) => (.error error, machine)
    | (.ok physical, machine) => machine.writePhysical physical value width

end Machine

end Pdp11
