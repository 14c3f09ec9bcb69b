import Pdp11.Proofs.KernelData
import Pdp11.Relocation.Window

/-!
# Registers of the relocation unit

Each register that software can reach has one address, and each address names at
most one register. Loads and stores look for registers on their own; here both are
taken apart into finding a register by its address and using the register found,
so that they agree on which register is meant and on whether there is one.
-/

namespace Pdp11

/-- The two parts of a word that a mask divides make up the word. -/
theorem and_not_add_and {w : Nat} (word mask : BitVec w) :
    (word &&& ~~~mask) + (word &&& mask) = word := by
  have apart : (word &&& ~~~mask) &&& (word &&& mask) = 0#w := by
    apply BitVec.eq_of_getLsbD_eq
    intro position below
    simp only [BitVec.getLsbD_and, BitVec.getLsbD_not, BitVec.getLsbD_zero]
    cases word.getLsbD position <;> cases mask.getLsbD position <;> simp
  rw [BitVec.add_eq_or_of_and_eq_zero _ _ apart]
  apply BitVec.eq_of_getLsbD_eq
  intro position below
  simp only [BitVec.getLsbD_or, BitVec.getLsbD_and, BitVec.getLsbD_not, below, decide_true]
  cases word.getLsbD position <;> cases mask.getLsbD position <;> rfl

/-- A register that software reaches through the window. -/
inductive MmuRegister
  | mmr0
  | mmr1
  | mmr2
  | mmr3
  | descriptor (page : PageId)
  | base (page : PageId)
deriving DecidableEq

namespace PagePart

/-- The register of `page` that is its descriptor or its base. -/
def register (page : PageId) : PagePart → MmuRegister
  | descriptor => .descriptor page
  | base => .base page

theorem register_inj {first second : PagePart} {page other : PageId}
    (same : first.register page = second.register other) : first = second ∧ page = other := by
  cases first <;> cases second <;> cases same <;> exact ⟨rfl, rfl⟩

end PagePart

/-! ## Addresses of registers -/

namespace MmuRegister

/-- Where the bank of a mode starts. -/
def bankStart? : Mode → Option PhysicalAddress
  | .kernel => some 0o17772300
  | .supervisor => some 0o17772200
  | .undefined => none
  | .user => some 0o17777600

/-- How far the registers of a page are from the start of their half of a bank. -/
def halfOffset (page : PageId) : PhysicalAddress :=
  (if page.space = .data then 0o20 else 0) + page.number.setWidth 32 * 2

/-- The address of a register; pages of undefined mode have none. -/
def address? : MmuRegister → Option PhysicalAddress
  | mmr0 => some Mmu.mmr0Address
  | mmr1 => some Mmu.mmr1Address
  | mmr2 => some Mmu.mmr2Address
  | mmr3 => some Mmu.mmr3Address
  | descriptor page => (bankStart? page.mode).map fun start => start + halfOffset page
  | base page => (bankStart? page.mode).map fun start => start + (0o40 + halfOffset page)

/-- The register at `address`. -/
def at? (address : PhysicalAddress) : Option MmuRegister :=
  if address = Mmu.mmr0Address then some .mmr0
  else if address = Mmu.mmr1Address then some .mmr1
  else if address = Mmu.mmr2Address then some .mmr2
  else if address = Mmu.mmr3Address then some .mmr3
  else (Mmu.bankRegister? address).map fun named => named.2.register named.1

theorem bankStart?_of_bankMode? {start : PhysicalAddress} {mode : Mode}
    (found : Mmu.bankMode? start = some mode) : bankStart? mode = some start := by
  unfold Mmu.bankMode? at found
  iterate 3
    split at found
    · rename_i here
      cases found
      exact congrArg some here.symm
  contradiction

/-- The low bits of an even address say which half, space and page it is for. -/
theorem low_bits_of_even {address : PhysicalAddress} (even : isOdd address = false) :
    address &&& 0o77 =
      (if address.getLsbD 5 then 0o40 else 0) +
        ((if address.getLsbD 4 then 0o20 else 0) +
          (address.extractLsb' 1 3).setWidth 32 * 2) := by
  have bit (position : Nat) :
      address.getLsbD position = decide (address.toNat / 2 ^ position % 2 = 1) :=
    Nat.testBit_eq_decide_div_mod_eq
  have low : (address &&& 0o77).toNat = address.toNat % 64 := by
    have ones : (0o77 : PhysicalAddress).toNat = 2 ^ 6 - 1 := by decide
    exact (BitVec.toNat_and _ _).trans
      ((congrArg _ ones).trans (Nat.and_two_pow_sub_one_eq_mod _ 6))
  have number : (address.extractLsb' 1 3).toNat = address.toNat / 2 % 8 := by
    rw [BitVec.extractLsb'_toNat, Nat.shiftRight_eq_div_pow]
  have whole := toNat_mod_two_of_even even
  have zero : (0 : PhysicalAddress).toNat = 0 := rfl
  have two : (2 : PhysicalAddress).toNat = 2 := rfl
  have data : (0o20 : PhysicalAddress).toNat = 0o20 := rfl
  have half : (0o40 : PhysicalAddress).toNat = 0o40 := rfl
  apply BitVec.eq_of_toNat_eq
  rw [low, bit 5, bit 4]
  simp only [decide_eq_true_eq, BitVec.toNat_add, BitVec.toNat_mul, BitVec.toNat_setWidth, number]
  split <;> split <;> simp only [zero, two, data, half] <;> omega

theorem address?_inBank {start address : PhysicalAddress} {mode : Mode}
    (even : isOdd address = false) (starts : bankStart? mode = some start) :
    ((Mmu.inBank mode address).2.register (Mmu.inBank mode address).1).address? =
      some (start + (address &&& 0o77)) := by
  rw [low_bits_of_even even]
  unfold Mmu.inBank
  cases address.getLsbD 5 <;> cases address.getLsbD 4 <;>
    simp [PagePart.register, address?, halfOffset, starts]

/-- What the banks name is at its address. -/
theorem address?_of_bankRegister? {address : PhysicalAddress} {page : PageId} {part : PagePart}
    (named : Mmu.bankRegister? address = some (page, part)) :
    (part.register page).address? = some address := by
  unfold Mmu.bankRegister? at named
  split at named
  · contradiction
  · rename_i odd
    obtain ⟨mode, found, here⟩ := Option.map_eq_some_iff.mp named
    have place := address?_inBank (Bool.eq_false_iff.mpr odd) (bankStart?_of_bankMode? found)
    rw [here, and_not_add_and] at place
    exact place

/-- What holds of the status registers and of the banks of the three modes holds
of every register that has an address. -/
theorem of_address? {P : MmuRegister → PhysicalAddress → Prop}
    (status : P mmr0 Mmu.mmr0Address ∧ P mmr1 Mmu.mmr1Address ∧ P mmr2 Mmu.mmr2Address ∧
      P mmr3 Mmu.mmr3Address)
    (banks : ∀ mode space number start, bankStart? mode = some start →
      P (descriptor { mode, space, number }) (start + halfOffset { mode, space, number }) ∧
        P (base { mode, space, number }) (start + (0o40 + halfOffset { mode, space, number })))
    {register : MmuRegister} {address : PhysicalAddress}
    (placed : register.address? = some address) : P register address := by
  obtain ⟨first, second, third, fourth⟩ := status
  cases register with
  | mmr0 | mmr1 | mmr2 | mmr3 =>
      cases placed
      assumption
  | descriptor page =>
      obtain ⟨start, starts, rfl⟩ := Option.map_eq_some_iff.mp placed
      exact (banks page.mode page.space page.number start starts).1
  | base page =>
      obtain ⟨start, starts, rfl⟩ := Option.map_eq_some_iff.mp placed
      exact (banks page.mode page.space page.number start starts).2

/-- Every register has its address. -/
theorem at?_of_address? {address : PhysicalAddress} {register : MmuRegister}
    (placed : register.address? = some address) : at? address = some register := by
  refine of_address? (P := fun register address => at? address = some register) ?_ ?_ placed
  · decide
  · intro mode space number start starts
    cases mode <;> cases starts <;> cases space <;> revert number <;> decide

@[simp]
theorem at?_mmr3Address : at? Mmu.mmr3Address = some .mmr3 :=
  at?_of_address? rfl

/-- An address names a register exactly where it is the address of that register. -/
theorem at?_eq_some_iff {address : PhysicalAddress} {register : MmuRegister} :
    at? address = some register ↔ register.address? = some address := by
  refine ⟨fun found => ?_, at?_of_address?⟩
  unfold at? at found
  -- The four status registers have addresses of their own.
  iterate 4
    split at found
    · rename_i here
      cases found
      exact congrArg some here.symm
  obtain ⟨⟨page, part⟩, named, rfl⟩ := Option.map_eq_some_iff.mp found
  exact address?_of_bankRegister? named

end MmuRegister

/-! ## Loads and stores -/

namespace Mmu

/-- The register at `address`, if this model has it. -/
def registerAt? (mmu : Mmu) (address : PhysicalAddress) : Option MmuRegister :=
  (MmuRegister.at? address).filter fun register =>
    !(register = .mmr3 && mmu.model = .pdp1134)

/-- The word in a register, as software reads it. -/
def readRegister (mmu : Mmu) : MmuRegister → Word
  | .mmr0 => mmu.mmr0.bits
  | .mmr1 => mmu.mmr1.bits
  | .mmr2 => mmu.mmr2
  | .mmr3 => mmu.mmr3.setWidth 16
  | .descriptor page => (mmu.descriptor page).bits
  | .base page => mmu.base page

/-- The unit after `value` is stored to a register; MMR1 and MMR2 ignore it. -/
def writeRegister (mmu : Mmu) (register : MmuRegister) (value : Word) : Mmu :=
  match register with
  | .mmr0 => mmu.writeMmr0 value
  | .mmr1 => mmu
  | .mmr2 => mmu
  | .mmr3 => mmu.writeMmr3 value
  | .descriptor page => mmu.loadDescriptor page value
  | .base page => mmu.loadBase page value

variable (mmu : Mmu) (address : PhysicalAddress) (value : Word)

/-- Of the registers with an address only MMR3 can be missing. -/
theorem registerAt?_eq_none_iff : mmu.registerAt? address = none ↔
    ∀ register : MmuRegister, register.address? = some address →
      register = .mmr3 ∧ mmu.model = .pdp1134 := by
  simp [registerAt?, Option.filter_eq_none_iff, MmuRegister.at?_eq_some_iff]

/-- A load reads the register at its address. -/
theorem read?_eq : mmu.read? address = (mmu.registerAt? address).map mmu.readRegister := by
  by_cases first : address = mmr0Address
  · rw [first]
    rfl
  by_cases second : address = mmr1Address
  · rw [second]
    rfl
  by_cases third : address = mmr2Address
  · rw [third]
    rfl
  by_cases fourth : address = mmr3Address
  · rw [fourth, registerAt?, MmuRegister.at?_mmr3Address, Option.filter_some]
    cases model : mmu.model with
    | pdp1134 => simp [read?, model, mmr0Address, mmr1Address, mmr2Address, mmr3Address]
    | pdp1170 =>
        simp [read?, model, mmr0Address, mmr1Address, mmr2Address, mmr3Address, readRegister]
  simp only [read?, registerAt?, MmuRegister.at?, first, second, third, fourth, if_false]
  rcases bankRegister? address with _ | ⟨page, _ | _⟩ <;>
    simp [PagePart.register, Option.filter_some, readRegister]

/-- A store goes to the register at its address. -/
theorem write?_eq : mmu.write? address value =
    (mmu.registerAt? address).map fun register => mmu.writeRegister register value := by
  by_cases first : address = mmr0Address
  · rw [first]
    rfl
  by_cases second : address = mmr1Address
  · rw [second]
    rfl
  by_cases third : address = mmr2Address
  · rw [third]
    rfl
  by_cases fourth : address = mmr3Address
  · rw [fourth, registerAt?, MmuRegister.at?_mmr3Address, Option.filter_some]
    cases model : mmu.model with
    | pdp1134 => simp [write?, model, mmr0Address, mmr1Address, mmr2Address, mmr3Address]
    | pdp1170 =>
        simp [write?, model, mmr0Address, mmr1Address, mmr2Address, mmr3Address, writeRegister]
  simp only [write?, registerAt?, MmuRegister.at?, first, second, third, fourth, or_self, if_false]
  rcases bankRegister? address with _ | ⟨page, _ | _⟩ <;>
    simp [PagePart.register, Option.filter_some, writeRegister]

end Mmu

end Pdp11
