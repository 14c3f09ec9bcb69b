import Pdp11.Memory.Map
import Pdp11.Trap.Interrupt

/-!
# The device bus

Devices answer reads and writes of their registers, raise and drop interrupt
requests when polled, and are reset together. A recorded bus behaves as the
bus it wraps and keeps the list of calls made to it.
-/

namespace Pdp11

universe u

/-- Why the bus does not carry out a call. -/
inductive BusError
  | nonexistent
deriving DecidableEq

/-- The error as the operator reads it. -/
def BusError.message : BusError → String
  | nonexistent => "no device at address"

/-- Devices whose state is in `δ`. A byte is written to its own address, with
the byte in the low half of the word. -/
class Bus (δ : Type u) where
  read : δ → PhysicalAddress → Except BusError Word × δ
  write : δ → PhysicalAddress → Word → Width → Except BusError Unit × δ
  poll : δ → InterruptRequests → InterruptRequests × δ := fun devices requests =>
    (requests, devices)
  reset : δ → δ := id

/-- A bus that nothing is attached to. -/
inductive NoDevices
  | none
deriving DecidableEq

instance : Bus NoDevices where
  read devices _ := (.error .nonexistent, devices)
  write devices _ _ _ := (.error .nonexistent, devices)

/-- A call of the processor to the devices, with their answer. -/
inductive BusCall
  | read (address : PhysicalAddress) (answer : Except BusError Word)
  | write (address : PhysicalAddress) (value : Word) (width : Width)
      (answer : Except BusError Unit)
  | poll
  | reset

/-- Devices together with the calls made to them, the earliest first. -/
structure Recorded (δ : Type u) where
  devices : δ
  calls : Array BusCall

namespace Recorded

variable {δ : Type u}

/-- The devices after a call, with the call added to the list. -/
def record (recorded : Recorded δ) (devices : δ) (call : BusCall) : Recorded δ where
  devices := devices
  calls := recorded.calls.push call

end Recorded

instance {δ : Type u} [Bus δ] : Bus (Recorded δ) where
  read recorded address :=
    let (answer, devices) := Bus.read recorded.devices address
    (answer, recorded.record devices (.read address answer))
  write recorded address value width :=
    let (answer, devices) := Bus.write recorded.devices address value width
    (answer, recorded.record devices (.write address value width answer))
  poll recorded requests :=
    let (polled, devices) := Bus.poll recorded.devices requests
    (polled, recorded.record devices .poll)
  reset recorded :=
    recorded.record (Bus.reset recorded.devices) .reset

end Pdp11
