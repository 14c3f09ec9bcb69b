import Pdp11.Arithmetic.Extended
import Pdp11.Machine.Access
import Pdp11.Microcode.Op

/-!
# Effects of micro-operations

The effect of a micro-operation is how the instruction goes on, the register
writes it posts and what it does to the rest of the machine. Register writes
are posted as cells, since the status word that names the cells may change.
-/

namespace Pdp11

universe u

/-- Kernel stack addresses below this ask for a trap. -/
def stackLimit : Word := 0o400

/-- Kernel stack addresses below this end the instruction. -/
def stackRedZone : Word := 0o340

/-- How an instruction goes on after a micro-operation. -/
inductive Disposition
  | next
  | flush
  | raise (kind : TrapClass)
deriving DecidableEq

/-- A machine in the middle of an instruction. -/
structure Datapath (δ : Type u) where
  machine : Machine δ
  signals : Signals

/-- What a micro-operation does: the machine and the signals it leaves, the register
writes it posts, and how the instruction goes on. -/
structure Effect (δ : Type u) where
  datapath : Datapath δ
  writes : List (Cell × Word) := []
  disposition : Disposition := .next

namespace Machine

variable {δ : Type u}

/-- The machine is in kernel mode. -/
def inKernel (machine : Machine δ) : Bool :=
  machine.psw.mode = .kernel

/-- The mode that an access chooses. -/
def selectedMode (machine : Machine δ) : ModeChoice → Mode
  | .current => machine.psw.mode
  | .previous => machine.psw.previousMode
  | .kernel => .kernel

/-- The status word after a load of `value`. -/
def loadedPsw (machine : Machine δ) (value : Word) : PswRule → Psw
  | .ordinary => machine.psw.returned (.ofBits value)
  | .mtps => machine.psw.moved (.ofBits value)
  | .exception interrupted => (Psw.ofBits value).entered (.ofBits (machine.reg interrupted))

/-- The status word with the condition codes in `mask` set or cleared. -/
def maskedCodes (machine : Machine δ) (set : Bool) (mask : BitVec 4) : Psw :=
  let code := machine.psw.codes.code
  { machine.psw with codes := .ofCode (if set then code ||| mask else code &&& ~~~mask) }

/-- Check the stack pointer after it was stepped down. -/
def guardStack (machine : Machine δ) : Disposition × Machine δ :=
  let pointer := machine.reg .sp
  if machine.inKernel && pointer < stackRedZone then
    (.raise .stackOverflow, { machine with traps := machine.traps.insertRedZone })
  else if machine.inKernel && pointer < stackLimit then
    (.next, machine.raise .stackOverflow)
  else
    (.next, machine)

/-- Let the predictor know how a branch went. -/
def noteBranch (machine : Machine δ) (taken : Bool) (pc target : Word) : Machine δ :=
  { machine with predictor := machine.predictor.learn taken pc target }

/-- Read in the mode and the space of `select`. -/
def loadSelected [Bus δ] (machine : Machine δ) (address : Word) (width : Width)
    (select : AccessSpace) : Except AccessError Word × Machine δ :=
  let cycle :=
    match select.space with
    | .instruction => .instructionStream
    | .data => .read
  machine.read (machine.selectedMode select.mode) cycle address width

/-- Write in the mode of `select`. The write goes to data, whatever
the space of `select` is. -/
def storeSelected [Bus δ] (machine : Machine δ) (address value : Word) (width : Width)
    (select : AccessSpace) : Except AccessError Unit × Machine δ :=
  machine.write (machine.selectedMode select.mode) address value width

/-- Clear what a bus reset clears. -/
def resetBus [Bus δ] (machine : Machine δ) : Machine δ :=
  { machine with
    mmu := machine.mmu.reset
    requests := .none
    devices := Bus.reset machine.devices }

end Machine

namespace Datapath

variable {δ : Type u}

/-- The word in a register. -/
def reg (datapath : Datapath δ) (reg : Reg) : Word :=
  datapath.machine.reg reg

/-- Go on, with `machine` in place of the machine. -/
def proceed (datapath : Datapath δ) (machine : Machine δ) : Effect δ where
  datapath := { datapath with machine := machine }

/-- Go on after posting writes to registers. -/
def post (datapath : Datapath δ) (writes : List (Reg × Word)) : Effect δ where
  datapath := datapath
  writes := writes.map fun (reg, value) => (reg.cell datapath.machine.psw, value)

/-- Go on after posting writes and leaving `signals`. -/
def postWith (datapath : Datapath δ) (signals : Signals) (writes : List (Reg × Word)) :
    Effect δ :=
  { datapath with signals := signals }.post writes

/-- Put `machine` in place of the machine and leave it to `disposition` whether
the instruction goes on. -/
def stop (datapath : Datapath δ) (machine : Machine δ) (disposition : Disposition) :
    Effect δ where
  datapath := { datapath with machine := machine }
  disposition := disposition

/-- Post the two words of `wide`, the high word first. -/
def postWide (datapath : Datapath δ) (signals : Signals) (high low : Reg) (wide : BitVec 32) :
    Effect δ :=
  datapath.postWith signals [(high, pairHigh wide), (low, pairLow wide)]

end Datapath

namespace MicroOp

variable {δ : Type u} [Bus δ]

/-- The effect of one micro-operation. Register writes are only posted here,
under the status word of the moment; what else it does has already happened
in the datapath that it leaves. -/
def effect (op : MicroOp) (datapath : Datapath δ) : Effect δ :=
  let machine := datapath.machine
  let psw := machine.psw
  let value := datapath.reg
  match op with
  | nop => datapath.proceed machine
  | halt =>
    if machine.inKernel then
      datapath.stop { machine with runState := .halted } .flush
    else
      datapath.stop machine (.raise .illegal)
  | wait =>
    if machine.inKernel then
      datapath.stop { machine with runState := .waiting } .flush
    else
      datapath.stop machine .flush
  | reset => datapath.proceed (if machine.inKernel then machine.resetBus else machine)
  | move dst src => datapath.post [(dst, value src)]
  | loadImm dst word => datapath.post [(dst, word)]
  | addImm dst src word => datapath.post [(dst, value src + word)]
  | step reg amount =>
    let mmu :=
      if reg.isGeneral then
        machine.mmu.recordStep (BitVec.ofNat 3 reg.number) amount
      else
        machine.mmu
    { datapath := { datapath with machine := { machine with mmu := mmu } }
      writes := [(reg.cell psw, value reg + amount)] }
  | load dst address width space =>
    match machine.loadSelected (value address) width space with
    | (.ok word, machine) => { datapath with machine := machine }.post [(dst, word)]
    | (.error error, machine) => datapath.stop machine (.raise error.trapClass)
  | store address src width space =>
    match machine.storeSelected (value address) (value src) width space with
    | (.ok (), machine) => datapath.proceed machine
    | (.error error, machine) => datapath.stop machine (.raise error.trapClass)
  | insertByte dst src =>
    datapath.post [(dst, wordOfBytes (lowByte (value src)) (highByte (value dst)))]
  | signExtendByte dst src => datapath.post [(dst, (lowByte (value src)).signExtend 16)]
  | readPreviousSp dst => datapath.post [(dst, machine.stackPointer psw.previousMode)]
  | writePreviousSp src =>
    { datapath := datapath
      writes := [(.stackPointer psw.previousMode, value src)] }
  | readPsw dst => datapath.post [(dst, psw.bits)]
  | loadPsw src rule =>
    datapath.proceed { machine with psw := machine.loadedPsw (value src) rule }
  | forceKernel => datapath.proceed { machine with psw := { psw with mode := .kernel } }
  | alu op dst first second width =>
    let (result, signals) := op.run (value first) (value second) width psw.codes.carry
    datapath.postWith signals [(dst, result)]
  | shift op dst src width =>
    let (result, out) := op.run (value src) width psw.codes.carry
    datapath.postWith { Signals.quiet with shiftedOut := out } [(dst, result)]
  | swab dst src =>
    datapath.post [(dst, wordOfBytes (highByte (value src)) (lowByte (value src)))]
  | signExtend dst => datapath.post [(dst, if psw.codes.negative then 0o177777 else 0)]
  | mul high low first second =>
    let product := multiply (value first) (value second)
    datapath.postWide { Signals.quiet with wide := product } high low product
  | div high low divisor =>
    match divide (value high) (value low) (value divisor) with
    | .ok (quotient, remainder) =>
      datapath.postWith .quiet [(high, quotient), (low, remainder)]
    | .error status => datapath.postWith { Signals.quiet with division := status } []
  | shiftArith dst src count =>
    let shift := shiftArithmetic (value src) (value count)
    datapath.postWith
      { Signals.quiet with
        shiftedOut := shift.shiftedOut
        signChanged := shift.signChanged }
      [(dst, shift.value)]
  | shiftArithPair high low count =>
    let shift := shiftArithmeticPair (value high) (value low) (value count)
    datapath.postWide
      { Signals.quiet with
        shiftedOut := shift.shiftedOut
        signChanged := shift.signChanged
        wide := shift.value }
      high low shift.value
  | conditionCodes set mask =>
    datapath.proceed { machine with psw := machine.maskedCodes set (mask.extractLsb' 0 4) }
  | evalFlags rule result width =>
    if machine.pswWritten then
      datapath.proceed machine
    else
      let codes := rule.evaluate (value result &&& width.mask) width datapath.signals psw.codes
      datapath.proceed { machine with psw := { psw with codes := codes } }
  | stackGuard =>
    let (disposition, machine) := machine.guardStack
    datapath.stop machine disposition
  | inhibitTrace => datapath.proceed { machine with traceInhibited := true }
  | setPriority level =>
    datapath.proceed <|
      if machine.inKernel then
        { machine with psw := { psw with priority := level.extractLsb' 0 3 } }
      else
        machine
  | branch condition pc target =>
    let taken := condition.holds psw.codes value
    { datapath := { datapath with machine := machine.noteBranch taken pc target }
      writes := if taken then [(.programCounter, target)] else []
      disposition := .flush }
  | jump pc target =>
    { datapath := { datapath with machine := machine.noteBranch true pc (value target) }
      writes := [(.programCounter, value target)]
      disposition := .flush }
  | raiseTrap kind => datapath.stop machine (.raise kind)

end MicroOp

end Pdp11
