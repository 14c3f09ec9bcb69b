import Pdp11.Relocation.Status

/-!
# The relocation unit

The unit holds the page table and the registers MMR0 to MMR3. While an abort
is recorded, MMR0 to MMR2 stay as they are, so that a handler finds the first
failure and not a later one.
-/

namespace Pdp11

/-- The two processors, which differ in what their relocation units can do. -/
inductive Model
  /-- Eighteen-bit addresses, one space per mode, no memory management traps. -/
  | pdp1134
  /-- Twenty-two-bit addresses, split spaces and memory management traps. -/
  | pdp1170
deriving DecidableEq

/-- The relocation unit of a machine, as far as software can tell. -/
structure Mmu where
  model : Model
  pages : PageTable
  mmr0 : Mmr0
  mmr1 : Mmr1
  mmr2 : Word
  mmr3 : BitVec 6
deriving DecidableEq

namespace Mmu

/-- The unit as it is switched on, with relocation off and every page absent. -/
def new (model : Model) : Mmu where
  model := model
  pages := .cleared
  mmr0 := .cleared
  mmr1 := .cleared
  mmr2 := 0
  mmr3 := 0

/-- Addresses are relocated. -/
def enabled (mmu : Mmu) : Bool :=
  mmu.mmr0.enabled

/-- An abort is recorded, so that the status registers stay as they are. -/
def frozen (mmu : Mmu) : Bool :=
  mmu.mmr0.aborted

/-- The unit after software stores to MMR0; this is how a
recorded abort is cleared. -/
def writeMmr0 (mmu : Mmu) (value : Word) : Mmu :=
  { mmu with mmr0 := mmu.mmr0.loaded value }

/-- The unit after software stores to MMR3, which the smaller model does not have. -/
def writeMmr3 (mmu : Mmu) (value : Word) : Mmu :=
  match mmu.model with
  | .pdp1134 => mmu
  | .pdp1170 => { mmu with mmr3 := value.extractLsb' 0 6 }

/-- The descriptor of `page`. -/
def descriptor (mmu : Mmu) (page : PageId) : PageDescriptor :=
  (mmu.pages.get page).descriptor

/-- The base of `page`, in blocks of 64 bytes. -/
def base (mmu : Mmu) (page : PageId) : Word :=
  (mmu.pages.get page).base

/-- The unit after software stores to the descriptor of `page`. -/
def loadDescriptor (mmu : Mmu) (page : PageId) (value : Word) : Mmu :=
  { mmu with pages := mmu.pages.set page ((mmu.pages.get page).loadDescriptor value) }

/-- The unit after software stores to the base of `page`. -/
def loadBase (mmu : Mmu) (page : PageId) (value : Word) : Mmu :=
  { mmu with pages := mmu.pages.set page ((mmu.pages.get page).loadBase value) }

/-- A bus reset switches relocation off and leaves the pages alone. -/
def reset (mmu : Mmu) : Mmu :=
  { mmu with
    mmr0 := .cleared
    mmr3 := 0 }

/-- Forget the steps of the instruction before, unless an abort is recorded. -/
def startInstruction (mmu : Mmu) : Mmu :=
  if mmu.frozen then mmu else { mmu with mmr1 := .cleared }

/-- Note that an instruction stepped `register` by `amount`. -/
def recordStep (mmu : Mmu) (register : BitVec 3) (amount : Word) : Mmu :=
  if mmu.frozen then mmu else { mmu with mmr1 := mmu.mmr1.record register amount }

/-- Data accesses of `mode` use pages of their own. -/
def splitsSpaces (mmu : Mmu) : Mode → Bool
  | .kernel => mmu.mmr3.getLsbD 2
  | .supervisor => mmu.mmr3.getLsbD 1
  | .undefined => false
  | .user => mmu.mmr3.getLsbD 0

/-- Physical addresses have twenty-two bits instead of eighteen. -/
def extended (mmu : Mmu) : Bool :=
  mmu.model = .pdp1170 && mmu.mmr3.getLsbD 4

end Mmu

end Pdp11
