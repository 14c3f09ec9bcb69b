import Pdp11.Relocation.Unit

/-!
# Address translation

A virtual address names a page by its upper three bits, a block of the page by
the next seven and a byte by all thirteen below the page number. The access
control field of the page decides whether an access may go on, asks for a trap
or aborts; an access outside the length of the page aborts as well.
-/

namespace Pdp11

/-- What an access is for. -/
inductive MemoryCycle
  /-- The first word of an instruction. -/
  | fetch
  /-- A later word of an instruction. -/
  | instructionStream
  | read
  | write
deriving DecidableEq

namespace MemoryCycle

/-- The access changes what it reaches. -/
def isWrite : MemoryCycle → Bool
  | write => true
  | fetch | instructionStream | read => false

/-- The space that holds what the access is after, where a mode has two. -/
def space : MemoryCycle → Space
  | fetch | instructionStream => .instruction
  | read | write => .data

end MemoryCycle

/-- The start of the part of the address space that reaches the device
registers without relocation. -/
def unrelocatedWindow : Word := 0o160000

/-- The physical address of `address` without relocation. -/
def unrelocated (address : Word) : PhysicalAddress :=
  if address ≥ unrelocatedWindow then
    address.setWidth 32 - unrelocatedWindow.setWidth 32 + ioPageBase
  else
    address.setWidth 32

/-- Where an access goes that the unit lets through. -/
structure Translation where
  physical : PhysicalAddress
  /-- A memory management trap is due after the instruction. -/
  trap : Bool
deriving DecidableEq

/-- What the access control field says about an access. -/
inductive Verdict
  | allow
  | trap
  | abort (cause : AbortCause)
deriving DecidableEq

namespace PageDescriptor

/-- What the access control field of the page says to a read or a write on `model`. On
the smaller model the fields 4 and 5 refuse a first write. On the larger one 5 asks
for a trap at the first write, and 4 at every access, as 1 does at every read. -/
def verdict (descriptor : PageDescriptor) (model : Model) (write : Bool) : Verdict :=
  let firstWrite := write && !descriptor.written
  match descriptor.access.toNat with
  | 1 =>
    if write then .abort .readOnly
    else match model with
      | .pdp1134 => .allow
      | .pdp1170 => .trap
  | 2 => if write then .abort .readOnly else .allow
  | 4 =>
    match model with
    | .pdp1134 => if firstWrite then .abort .readOnly else .allow
    | .pdp1170 => .trap
  | 5 =>
    if firstWrite then
      match model with
      | .pdp1134 => .abort .readOnly
      | .pdp1170 => .trap
    else .allow
  | 6 => .allow
  | _ => .abort .nonResident

/-- The page does not reach as far as `block`. -/
def excludes (descriptor : PageDescriptor) (block : BitVec 7) : Bool :=
  if descriptor.expandsDown then
    block < descriptor.length
  else
    block > descriptor.length

/-- Every reason to abort an access to `block`, the one to report first. -/
def abortCauses (descriptor : PageDescriptor) (model : Model) (block : BitVec 7)
    (write : Bool) : List AbortCause :=
  AbortCause.all.filter fun
    | .pageLength => descriptor.excludes block
    | cause => descriptor.verdict model write = .abort cause

end PageDescriptor

namespace Mmu

/-- The page that an access of `cycle` to `address` uses. -/
def pageOf (mmu : Mmu) (mode : Mode) (cycle : MemoryCycle) (address : Word) : PageId where
  mode := mode
  space := if mmu.splitsSpaces mode then cycle.space else .instruction
  number := address.extractLsb' 13 3

/-- Eighteen-bit addresses reach the device registers through their own top
eight kilobytes. -/
def physicalOfSum (mmu : Mmu) (sum : PhysicalAddress) : PhysicalAddress :=
  if mmu.extended then
    sum &&& physicalMask
  else
    let narrow := sum &&& 0o777777
    if narrow ≥ 0o760000 then narrow - 0o760000 + ioPageBase else narrow

/-- Where `address` is within `page`, whose base counts blocks of 64 bytes. -/
def physicalAddress (mmu : Mmu) (page : PageId) (address : Word) : PhysicalAddress :=
  mmu.physicalOfSum
    ((mmu.base page).setWidth 32 <<< 6 + (address.extractLsb' 0 13).setWidth 32)

/-- Record an abort, unless one is recorded already. -/
def recordAbort (mmu : Mmu) (causes : List AbortCause) (page : PageId) : Mmu :=
  if mmu.frozen then mmu else { mmu with mmr0 := mmu.mmr0.latched causes page }

/-- Record that an access to `page` went through. -/
def markAccess (mmu : Mmu) (page : PageId) (write trap : Bool) : Mmu :=
  let entry := mmu.pages.get page
  { mmu with
    pages := mmu.pages.set page { entry with descriptor := entry.descriptor.marked write }
    mmr0 := { mmu.mmr0 with trapped := mmu.mmr0.trapped || (trap && !mmu.frozen) } }

/-- Translate `address` through its page. An access that is refused is recorded in
MMR0; one that goes through marks the page. -/
def relocate (mmu : Mmu) (mode : Mode) (cycle : MemoryCycle) (address : Word) :
    Except AbortCause Translation × Mmu :=
  let page := mmu.pageOf mode cycle address
  let descriptor := mmu.descriptor page
  match descriptor.abortCauses mmu.model (address.extractLsb' 6 7) cycle.isWrite with
  | cause :: others => (.error cause, mmu.recordAbort (cause :: others) page)
  | [] =>
    let trap := descriptor.verdict mmu.model cycle.isWrite = .trap
    (.ok
      { physical := mmu.physicalAddress page address
        trap := trap && mmu.mmr0.trapEnabled },
      mmu.markAccess page cycle.isWrite trap)

/-- MMR2 follows the address of the current instruction. -/
def noteFetch (mmu : Mmu) (cycle : MemoryCycle) (address : Word) : Mmu :=
  if cycle = .fetch ∧ !mmu.frozen then { mmu with mmr2 := address } else mmu

/-- Translate `address` for an access of `mode`. Without relocation every address goes
through, and the top ones reach the device registers. -/
def translate (mmu : Mmu) (mode : Mode) (cycle : MemoryCycle) (address : Word) :
    Except AbortCause Translation × Mmu :=
  let noted := mmu.noteFetch cycle address
  if noted.enabled then
    noted.relocate mode cycle address
  else
    (.ok { physical := unrelocated address, trap := false }, noted)

end Mmu

end Pdp11
