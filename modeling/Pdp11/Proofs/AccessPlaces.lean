import Pdp11.Proofs.Interpreter.Values
import Pdp11.Proofs.Isolation.Confidentiality

/-!
# Where stores and loads of one space meet

A store goes through the data pages of its mode whatever space it names, and a
load through the pages of its space. While these lead to the same place, a load
finds what was stored last at its address. Where they lead to different places
in memory, it finds what was there before the store.
-/

namespace Pdp11

universe u

namespace Ram

variable {ram stored : Ram} {offset other : Nat} {value : Word} {width : Width}

theorem read?_of_write? (write : ram.write? offset value width = some stored) :
    stored.read? offset width = some (value &&& width.mask) := by
  cases width with
  | byte =>
      have byte := readByte?_writeByte write offset
      rw [if_pos rfl] at byte
      rw [read?, byte, ← setWidth_lowByte]
      rfl
  | word => rw [read?_write? write, and_mask_word]

theorem read?_of_write?_apart (write : ram.write? offset value width = some stored)
    (apart : wordOffset offset ≠ wordOffset other) :
    stored.read? other width = ram.read? other width := by
  cases width with
  | byte =>
      have different : offset ≠ other := fun same => apart (congrArg wordOffset same)
      rw [read?, readByte?_writeByte write, if_neg different]
      rfl
  | word => exact read?_write?_of_ne write apart

end Ram

namespace Mmu

variable {mmu : Mmu} {mode : Mode} {space : Space}

/-- An access to `space` uses the pages that a data access uses. -/
def SharesPages (mmu : Mmu) (mode : Mode) (space : Space) : Prop :=
  space = .data ∨ mmu.enabled = false ∨ mmu.splitsSpaces mode = false

theorem destination_of_sharesPages (shares : mmu.SharesPages mode space) (address : Word) :
    mmu.destination mode (Machine.loadCycle space) address =
      mmu.destination mode .write address := by
  rcases shares with rfl | off | together
  · rfl
  · simp only [destination, off, Bool.false_eq_true, if_false]
  · have samePage : mmu.pageOf mode (Machine.loadCycle space) address =
        mmu.pageOf mode .write address := by
      simp only [pageOf, together, Bool.false_eq_true, if_false]
    rw [destination, samePage]
    rfl

/-- Two accesses of one address that lead to different places in memory lead to
different words. -/
theorem wordOffset_ne_of_destination_ne {first second : MemoryCycle} {address : Word}
    {size offset other : Nat}
    (lands : Region.of (mmu.destination mode first address) size = .ram offset)
    (otherLands : Region.of (mmu.destination mode second address) size = .ram other)
    (apart : mmu.destination mode second address ≠ mmu.destination mode first address) :
    Ram.wordOffset offset ≠ Ram.wordOffset other := by
  have inBlock := block_offset_destination lands
  have otherInBlock := block_offset_destination otherLands
  have different : other ≠ offset := by
    rw [← toNat_destination_of_ram lands, ← toNat_destination_of_ram otherLands]
    exact fun same => apart (BitVec.eq_of_toNat_eq same)
  unfold Ram.wordOffset
  omega

end Mmu

variable {δ : Type u}

namespace Machine

/-- Where a store to `address` in the spaces of `mode` goes. -/
def storePlace (machine : Machine δ) (mode : Mode) (address : Word) : PhysicalAddress :=
  machine.mmu.destination mode .write address

/-- Where a load from `address` in a space of `mode` goes. -/
def loadPlace (machine : Machine δ) (mode : Mode) (space : Space) (address : Word) :
    PhysicalAddress :=
  machine.mmu.destination mode (loadCycle space) address

/-- A store to `address` goes to memory. -/
def StoresInRam (machine : Machine δ) (mode : Mode) (address : Word) : Prop :=
  ∃ offset, Region.of (machine.storePlace mode address) machine.ram.size = .ram offset

/-- `found` is what a load from `address` must find after `before` has stored
`value` there: the value, or what stood at a place of its own. -/
structure Finds (before : Machine δ) (mode : Mode) (space : Space) (address value : Word)
    (width : Width) (found : Word) : Prop where
  shared : before.mmu.SharesPages mode space → found = value &&& width.mask
  same : before.loadPlace mode space address = before.storePlace mode address →
    found = value &&& width.mask
  apart : before.loadPlace mode space address ≠ before.storePlace mode address →
    ∀ offset, Region.of (before.loadPlace mode space address) before.ram.size = .ram offset →
      before.ram.read? offset width = some found

variable [Bus δ] {mode : Mode} {address value : Word} {width : Width}

/-- A load finds what its place holds, and only the place of the store has
changed. -/
theorem finds_of_write_read {before stored later final : Machine δ} {space : Space} {found : Word}
    (inRam : before.StoresInRam mode address)
    (stores : before.write mode address value width = (.ok (), stored))
    (mapping : stored.mmu.SameMapping later.mmu) (ram : later.ram = stored.ram)
    (loads : later.read mode (loadCycle space) address width = (.ok found, final)) :
    before.Finds mode space address value width found := by
  rcases inRam with ⟨offset, lands⟩
  have wrote := wroteRam_of_write lands stores
  have size : later.ram.size = before.ram.size := by
    rw [ram, Ram.size_of_write? wrote.ram]
  have place : later.mmu.destination mode (loadCycle space) address =
      before.loadPlace mode space address :=
    (wrote.mmu.sameMapping.trans mapping).destination mode (loadCycle space) address
  have read (other : Nat)
      (otherLands : Region.of (before.loadPlace mode space address) before.ram.size =
        .ram other) : stored.ram.read? other width = some found := by
    rw [← place, ← size] at otherLands
    rw [← ram]
    exact read?_of_read (loadCycle_ne_fetch space) otherLands loads
  have same (samePlace : before.loadPlace mode space address = before.storePlace mode address) :
      found = value &&& width.mask := by
    have here := read offset (samePlace ▸ lands)
    rw [Ram.read?_of_write? wrote.ram] at here
    exact (Option.some.inj here).symm
  constructor
  · intro shares
    exact same (Mmu.destination_of_sharesPages shares address)
  · exact same
  · intro apart other otherLands
    have different := Mmu.wordOffset_ne_of_destination_ne lands otherLands apart
    rw [← Ram.read?_of_write?_apart wrote.ram different]
    exact read other otherLands

end Machine

end Pdp11
