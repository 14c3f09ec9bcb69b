import Pdp11.Relocation.Unit

/-!
# The registers of the relocation unit among the device registers

Software reaches the unit through fixed physical addresses. Kernel, supervisor
and user mode each have a bank of thirty-two words: sixteen descriptors, then
sixteen bases, in either half the instruction pages before the data pages.
-/

namespace Pdp11

/-- One of the two registers of a page. -/
inductive PagePart
  | descriptor
  | base
deriving DecidableEq

namespace Mmu

/-- Where MMR0 is. -/
def mmr0Address : PhysicalAddress := 0o17777572

/-- Where MMR1 is. -/
def mmr1Address : PhysicalAddress := 0o17777574

/-- Where MMR2 is. -/
def mmr2Address : PhysicalAddress := 0o17777576

/-- Where MMR3 is, if the model has it. -/
def mmr3Address : PhysicalAddress := 0o17772516

/-- The mode whose bank of thirty-two words starts at `start`. -/
def bankMode? (start : PhysicalAddress) : Option Mode :=
  if start = 0o17772300 then some .kernel
  else if start = 0o17772200 then some .supervisor
  else if start = 0o17777600 then some .user
  else none

/-- The page, and which of its registers, that an even address in the bank of
`mode` names. -/
def inBank (mode : Mode) (address : PhysicalAddress) : PageId × PagePart :=
  ({ mode := mode
     space := if address.getLsbD 4 then .data else .instruction
     number := address.extractLsb' 1 3 },
    if address.getLsbD 5 then .base else .descriptor)

/-- The page, and which of its registers, at `address`; odd addresses name none. -/
def bankRegister? (address : PhysicalAddress) : Option (PageId × PagePart) :=
  if isOdd address then none
  else (bankMode? (address &&& ~~~0o77)).map fun mode => inBank mode address

/-- What software reads at `address`, if a register of the unit is there. -/
def read? (mmu : Mmu) (address : PhysicalAddress) : Option Word :=
  if address = mmr0Address then some mmu.mmr0.bits
  else if address = mmr1Address then some mmu.mmr1.bits
  else if address = mmr2Address then some mmu.mmr2
  else if address = mmr3Address then
    match mmu.model with
    | .pdp1134 => none
    | .pdp1170 => some (mmu.mmr3.setWidth 16)
  else
    match bankRegister? address with
    | none => none
    | some (page, .descriptor) => some (mmu.descriptor page).bits
    | some (page, .base) => some (mmu.base page)

/-- The unit after software stores `value` at `address`, if a register of the
unit is there. MMR1 and MMR2 ignore what is stored to them. -/
def write? (mmu : Mmu) (address : PhysicalAddress) (value : Word) : Option Mmu :=
  if address = mmr0Address then some (mmu.writeMmr0 value)
  else if address = mmr1Address ∨ address = mmr2Address then some mmu
  else if address = mmr3Address then
    match mmu.model with
    | .pdp1134 => none
    | .pdp1170 => some (mmu.writeMmr3 value)
  else
    match bankRegister? address with
    | none => none
    | some (page, .descriptor) => some (mmu.loadDescriptor page value)
    | some (page, .base) => some (mmu.loadBase page value)

end Mmu

end Pdp11
